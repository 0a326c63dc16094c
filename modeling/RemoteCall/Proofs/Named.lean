/-
# Lists of named things with one entry for each name

What is found under a name does not depend on the order of the entries when no name repeats, so
taking an entry out leaves every other one to be found, although the last entry moves.  Nor does it
depend on entries under other names.
-/
import Mathlib.Data.List.Nodup
import RemoteCall.Named

namespace RemoteCall.Named

variable {α : Type} {l l' left : Named α} {name : String} {a : α}

lemma mem_of_get? (h : l.get? name = some a) : (name, a) ∈ l := by
  induction l with
  | nil => cases h
  | cons e rest ih =>
    obtain ⟨n, b⟩ := e
    by_cases hn : n = name
    · simp only [get?, hn, if_true, Option.some.injEq] at h
      simp [hn, h]
    · simp only [get?, hn, if_false] at h
      exact List.mem_cons_of_mem _ (ih h)

lemma get?_eq_none_iff : l.get? name = none ↔ name ∉ l.names := by
  induction l with
  | nil => simp [get?, names]
  | cons e rest ih =>
    obtain ⟨n, b⟩ := e
    by_cases hn : n = name
    · simp [get?, names, hn]
    · rw [get?, if_neg hn, ih]
      simp [names, Ne.symm hn]

/-- What is under a name that does not repeat is found. -/
lemma get?_of_count (h : l.names.count name ≤ 1) (hmem : (name, a) ∈ l) :
    l.get? name = some a := by
  induction l with
  | nil => cases hmem
  | cons e rest ih =>
    obtain ⟨n, b⟩ := e
    by_cases hn : n = name
    · subst hn
      have hrest : n ∉ Named.names rest := by
        rw [← List.count_eq_zero]
        simpa [names] using h
      rcases List.mem_cons.mp hmem with heq | hmem
      · cases heq
        simp [get?]
      · exact absurd (List.mem_map.mpr ⟨_, hmem, rfl⟩) hrest
    · rw [get?, if_neg hn]
      refine ih (Nat.le_trans List.count_le_count_cons h) ?_
      exact (List.mem_cons.mp hmem).resolve_left fun heq => hn (congrArg Prod.fst heq).symm

lemma get?_eq_some_iff (h : l.names.Nodup) : l.get? name = some a ↔ (name, a) ∈ l :=
  ⟨mem_of_get?, get?_of_count (List.nodup_iff_count_le_one.mp h name)⟩

lemma get?_perm (hl : l.Perm l') (h : l.names.Nodup) (name : String) :
    l'.get? name = l.get? name := by
  have h' : l'.names.Nodup := (hl.map Prod.fst).nodup h
  apply Option.ext
  intro a
  rw [get?_eq_some_iff h, get?_eq_some_iff h', hl.mem_iff]

/-- Taking an entry out leaves the other entries, in some order. -/
lemma perm_of_swapOut? (h : l.swapOut? name = some (a, left)) : l.Perm ((name, a) :: left) := by
  induction l generalizing left with
  | nil => cases h
  | cons e rest ih =>
    obtain ⟨n, b⟩ := e
    by_cases hn : n = name
    · subst hn
      rcases hlast : rest.getLast? with _ | last
      · simp only [swapOut?, if_true, hlast] at h
        cases h
        rw [List.getLast?_eq_none_iff.mp hlast]
      · simp only [swapOut?, if_true, hlast] at h
        cases h
        -- the last entry takes the place of the one that is taken out
        obtain ⟨init, rfl⟩ := List.getLast?_eq_some_iff.mp hlast
        rw [List.dropLast_concat]
        exact (List.perm_append_singleton last init).cons _
    · simp only [swapOut?, hn, if_false, Option.map_eq_some_iff] at h
      obtain ⟨⟨found, rest'⟩, hrest, heq⟩ := h
      cases heq
      exact ((ih hrest).cons _).trans (.swap _ _ _)

lemma swapOut?_eq_none_iff : l.swapOut? name = none ↔ l.get? name = none := by
  rw [← swapOut?_fst, Option.map_eq_none_iff]

/-- Taking an entry out of a list without repetitions leaves every other entry to be found. -/
lemma get?_of_swapOut? (hl : l.names.Nodup) (h : l.swapOut? name = some (a, left)) :
    left.names.Nodup ∧ ∀ m, left.get? m = if m = name then none else l.get? m := by
  have hperm := perm_of_swapOut? h
  have hnodup : (Named.names ((name, a) :: left)).Nodup := (hperm.map Prod.fst).nodup hl
  obtain ⟨hname, hleft⟩ := List.nodup_cons.mp hnodup
  refine ⟨hleft, fun m => ?_⟩
  by_cases hm : m = name
  · rw [if_pos hm, get?_eq_none_iff, hm]
    exact hname
  · rw [if_neg hm, ← get?_perm hperm hl, get?, if_neg (Ne.symm hm)]

lemma put_of_notMem (h : name ∉ l.names) (a : α) : l.put name a = l ++ [(name, a)] := by
  induction l with
  | nil => rfl
  | cons e rest ih =>
    obtain ⟨n, b⟩ := e
    simp only [names, List.map_cons, List.mem_cons, not_or] at h
    rw [put, if_neg (Ne.symm h.1), ih h.2, List.cons_append]

lemma get?_put_self (l : Named α) (name : String) (a : α) : (l.put name a).get? name = some a := by
  induction l with
  | nil => simp [put, get?]
  | cons e rest ih =>
    obtain ⟨n, b⟩ := e
    by_cases hn : n = name
    · simp [put, get?, hn]
    · simpa [put, get?, hn] using ih

lemma get?_put_of_ne {n : String} (h : n ≠ name) (l : Named α) (a : α) :
    (l.put name a).get? n = l.get? n := by
  induction l with
  | nil => simp [put, get?, Ne.symm h]
  | cons e rest ih =>
    obtain ⟨m, b⟩ := e
    by_cases hm : m = name
    · simp [put, get?, hm, Ne.symm h]
    · simp [put, get?, hm, ih]

lemma mem_names_put {n : String} (h : n ∈ (l.put name a).names) : n ∈ l.names ∨ n = name := by
  induction l with
  | nil => exact Or.inr (List.mem_singleton.mp h)
  | cons e rest ih =>
    obtain ⟨m, b⟩ := e
    rw [put] at h
    split at h
    · exact Or.inl h
    · rcases List.mem_cons.mp h with rfl | h
      · exact Or.inl List.mem_cons_self
      · exact (ih h).imp_left (List.mem_cons_of_mem _)

lemma get?_append (l l' : Named α) (name : String) :
    get? (l ++ l') name = (l.get? name).or (l'.get? name) := by
  induction l with
  | nil => rfl
  | cons e rest ih =>
    obtain ⟨n, b⟩ := e
    by_cases hn : n = name
    · simp [get?, hn]
    · simp [get?, hn, ih]

/-- A list is another one with further entries, whose names `extra` allows, at any positions. -/
inductive Inserted (extra : String → Prop) : Named α → Named α → Prop
  | nil : Inserted extra [] []
  | keep {l l' : Named α} (e : String × α) : Inserted extra l l' → Inserted extra (e :: l) (e :: l')
  | insert {l l' : Named α} {e : String × α} :
      extra e.1 → Inserted extra l l' → Inserted extra l (e :: l')

lemma Inserted.sublist {extra : String → Prop} (h : Inserted extra l l') : l.Sublist l' := by
  induction h with
  | nil => exact .slnil
  | keep e _ ih => exact ih.cons_cons e
  | insert _ _ ih => exact ih.cons _

lemma Inserted.get?_eq {extra : String → Prop} (h : Inserted extra l l') (hname : ¬ extra name) :
    l'.get? name = l.get? name := by
  induction h with
  | nil => rfl
  | keep e _ ih => rw [get?, get?, ih]
  | @insert l l' e hextra _ ih =>
    have hne : e.1 ≠ name := by
      rintro rfl
      exact hname hextra
    rw [get?, if_neg hne, ih]

lemma Inserted.eq {extra : String → Prop} (h : Inserted extra l l') (hnone : ∀ n, ¬ extra n) :
    l' = l := by
  induction h with
  | nil => rfl
  | keep e _ ih => rw [ih]
  | insert hextra _ _ => exact absurd hextra (hnone _)

end RemoteCall.Named
