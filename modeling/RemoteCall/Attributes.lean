/-
# Attributes in the order of their names

Further attributes of a context are kept in the order of their names, so that the same
attributes are always sent in the same way.
-/
import RemoteCall.Named

namespace RemoteCall

namespace Named

/-- Whether the names of a list strictly increase. -/
def Increasing {α : Type} (l : Named α) : Prop := l.Pairwise fun a b => a.1 < b.1

/-- Puts a thing under a name where the order of the names wants it, or in the place of the
thing under that name. -/
def insertOrdered {α : Type} (l : Named α) (name : String) (a : α) : Named α :=
  match l with
  | [] => [(name, a)]
  | (n, b) :: rest =>
    if name = n then (n, a) :: rest
    else if name < n then (name, a) :: (n, b) :: rest
    else (n, b) :: insertOrdered rest name a

theorem fst_of_mem_insertOrdered {α : Type} {l : Named α} {name : String} {a : α}
    {e : String × α} (h : e ∈ l.insertOrdered name a) : e.1 = name ∨ ∃ e' ∈ l, e'.1 = e.1 := by
  induction l with
  | nil =>
    simp only [insertOrdered, List.mem_singleton] at h
    exact .inl (h ▸ rfl)
  | cons f rest ih =>
    obtain ⟨n, b⟩ := f
    simp only [insertOrdered] at h
    split at h
    · rcases List.mem_cons.1 h with rfl | h
      · exact .inr ⟨(n, b), by simp, rfl⟩
      · exact .inr ⟨e, by simp [h], rfl⟩
    · split at h
      · rcases List.mem_cons.1 h with rfl | h
        · exact .inl rfl
        · exact .inr ⟨e, h, rfl⟩
      · rcases List.mem_cons.1 h with rfl | h
        · exact .inr ⟨(n, b), by simp, rfl⟩
        · rcases ih h with h | ⟨e', he, h⟩
          · exact .inl h
          · exact .inr ⟨e', by simp [he], h⟩

theorem increasing_insertOrdered {α : Type} {l : Named α} (h : l.Increasing) (name : String)
    (a : α) : (l.insertOrdered name a).Increasing := by
  induction l with
  | nil => simp [insertOrdered, Increasing]
  | cons f rest ih =>
    obtain ⟨n, b⟩ := f
    obtain ⟨hn, hrest⟩ := List.pairwise_cons.1 h
    simp only [insertOrdered]
    split
    · exact List.pairwise_cons.2 ⟨hn, hrest⟩
    · rename_i hne
      split
      · rename_i hlt
        refine List.pairwise_cons.2 ⟨?_, h⟩
        intro e he
        rcases List.mem_cons.1 he with rfl | he
        · exact hlt
        · exact String.lt_trans hlt (hn e he)
      · rename_i hnlt
        have hlt : n < name := by
          rcases String.le_total name n with h' | h'
          · exact absurd (String.le_antisymm h' (String.not_lt.1 hnlt)) hne
          · exact String.not_le.1 fun h'' => hne (String.le_antisymm h'' h')
        refine List.pairwise_cons.2 ⟨?_, ih hrest⟩
        intro e he
        rcases fst_of_mem_insertOrdered he with h' | ⟨e', he', h'⟩
        · exact h' ▸ hlt
        · exact h' ▸ hn e' he'

end Named

/-- Attributes, in the strict order of their names. -/
structure Attributes where
  /-- The attributes. -/
  entries : Named String := []
  /-- Their names strictly increase. -/
  increasing : entries.Increasing := by exact List.Pairwise.nil
deriving Repr

namespace Attributes

instance : DecidableEq Attributes := fun a b =>
  decidable_of_iff (a.entries = b.entries)
    ⟨fun h => by cases a; cases b; cases h; rfl, fun h => h ▸ rfl⟩

instance : Inhabited Attributes := ⟨{}⟩

/-- The attributes with one more, or with another value for one of them. -/
def insert (a : Attributes) (name value : String) : Attributes :=
  ⟨a.entries.insertOrdered name value, Named.increasing_insertOrdered a.increasing name value⟩

/-- The attributes of a list; of two entries of one name the later counts. -/
def ofList (l : Named String) : Attributes := l.foldl (fun a e => a.insert e.1 e.2) {}

end Attributes

end RemoteCall
