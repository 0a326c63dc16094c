/-
# What a writer visits

A writer walks through the values that it is given.  `Written` says what it has done when the walk
has come to its end: the objects met on the walk have been written out, each into at least one byte.
`Blocked` says why it gave up: the walk came to a value that is nested too deeply, or to an object
that is not there.

`Writer.Visits` combines the two.  It is the law of every writer here, and each way of putting
writers together keeps it.
-/
import RemoteCall.Proofs.Steps
import RemoteCall.Proofs.Walk
import RemoteCall.Proofs.Wire.Varint
import RemoteCall.Wire.Graph

namespace RemoteCall.Wire

/-- The values `roots` have been written as `bytes`; the objects written out were `seen` before and
are `seen'` now. -/
structure Written (g : Graph) (roots : List Value) (seen : List Nat) (bytes : List UInt8)
    (seen' : List Nat) : Prop where
  walk : g.Walk seen roots seen'
  room : seen'.length ≤ seen.length + bytes.length

/-- The values `roots` cannot be written with `levels` levels left: the walk through them comes to a
value `levels` levels down, or to an object that the graph does not hold. -/
def Blocked (g : Graph) (levels : Nat) (roots : List Value) (seen : List Nat)
    (cause : Unwritable) : Prop :=
  (cause = .tooDeep ∧ ∃ seen' w, g.Arrives seen roots levels seen' w) ∨
    ∃ n seen' id, n < levels ∧ cause = .missingObject id ∧
      g.Arrives seen roots n seen' (.object id) ∧ g.get? id = none

namespace Written

variable {g : Graph} {roots roots' : List Value} {seen seen' seen'' : List Nat}
  {bytes bytes' : List UInt8}

lemma longer (h : Written g roots seen bytes seen') (hlen : bytes.length ≤ bytes'.length) :
    Written g roots seen bytes' seen' :=
  ⟨h.walk, by have := h.room; omega⟩

/-- Values written one behind the other. -/
lemma append (h : Written g roots seen bytes seen') (h' : Written g roots' seen' bytes' seen'') :
    Written g (roots ++ roots') seen (bytes ++ bytes') seen'' where
  walk := h.walk.append h'.walk
  room := by
    have h1 := h.room
    have h2 := h'.room
    rw [List.length_append]
    omega

/-- A value that is no object is written when its parts are. -/
lemma of_parts {v : Value} (h : Written g v.parts seen bytes seen')
    (hv : ∀ id, v ≠ .object id) : Written g [v] seen bytes seen' :=
  ⟨.parts hv h.walk .done, h.room⟩

/-- An object is written out by writing the values of its fields after it has got its number. -/
lemma of_fields {id : Nat} {o : Node} (ho : g.get? id = some o) (hid : id ∉ seen)
    (h : Written g (o.fields.map Prod.snd) (seen ++ [id]) bytes seen')
    (hlen : bytes.length + 1 ≤ bytes'.length) : Written g [.object id] seen bytes' seen' where
  walk := .enter hid ho h.walk .done
  room := by
    have hroom := h.room
    rw [List.length_append, List.length_singleton] at hroom
    omega

end Written

namespace Blocked

variable {g : Graph} {levels : Nat} {roots roots' : List Value} {seen seen' : List Nat}
  {cause : Unwritable}

lemma append (h : Blocked g levels roots seen cause) (roots' : List Value) :
    Blocked g levels (roots ++ roots') seen cause := by
  rcases h with ⟨rfl, t, w, hw⟩ | ⟨n, t, id, hn, rfl, hw, hid⟩
  · exact Or.inl ⟨rfl, t, w, hw.append roots'⟩
  · exact Or.inr ⟨n, t, id, hn, rfl, hw.append roots', hid⟩

lemma after (hwalk : g.Walk seen roots seen') (h : Blocked g levels roots' seen' cause) :
    Blocked g levels (roots ++ roots') seen cause := by
  rcases h with ⟨rfl, t, w, hw⟩ | ⟨n, t, id, hn, rfl, hw, hid⟩
  · exact Or.inl ⟨rfl, t, w, .after hwalk hw⟩
  · exact Or.inr ⟨n, t, id, hn, rfl, .after hwalk hw, hid⟩

lemma of_parts {v : Value} (h : Blocked g levels v.parts seen cause) :
    Blocked g (levels + 1) [v] seen cause := by
  rcases h with ⟨rfl, t, w, hw⟩ | ⟨n, t, id, hn, rfl, hw, hid⟩
  · exact Or.inl ⟨rfl, t, w, .part hw⟩
  · exact Or.inr ⟨n + 1, t, id, by omega, rfl, .part hw, hid⟩

lemma of_fields {id : Nat} {o : Node} (ho : g.get? id = some o) (hid : id ∉ seen)
    (h : Blocked g levels (o.fields.map Prod.snd) (seen ++ [id]) cause) :
    Blocked g (levels + 1) [.object id] seen cause := by
  rcases h with ⟨rfl, t, w, hw⟩ | ⟨n, t, i, hn, rfl, hw, hi⟩
  · exact Or.inl ⟨rfl, t, w, .field hid ho hw⟩
  · exact Or.inr ⟨n + 1, t, i, by omega, rfl, .field hid ho hw, hi⟩

end Blocked

namespace Writer

variable {g : Graph} {levels : Nat} {roots roots' : List Value}

/-- The writer writes the values `roots` with `levels` levels left, or gives up for a good cause. -/
def Visits (g : Graph) (levels : Nat) (roots : List Value) (w : Writer) : Prop :=
  ∀ seen, (∀ bytes seen', StateT.run w seen = .ok (bytes, seen') →
      Written g roots seen bytes seen') ∧
    ∀ cause, StateT.run w seen = .error cause → Blocked g levels roots seen cause

lemma visits_pure (bytes : List UInt8) : Visits g levels [] (pure bytes) := by
  intro seen
  constructor
  · intro bytes' seen' h
    cases h
    exact ⟨.done, by omega⟩
  · intro cause h
    cases h

/-- Bytes put around what a writer writes. -/
lemma Visits.map {w : Writer} {u : List UInt8 → List UInt8} (hw : Visits g levels roots w)
    (hu : ∀ b, b.length ≤ (u b).length) : Visits g levels roots (w >>= fun b => pure (u b)) := by
  intro seen
  constructor
  · intro bytes seen' h
    obtain ⟨b, t, hb, hrest⟩ := run_bind_eq_ok.mp h
    cases hrest
    exact ((hw seen).1 b _ hb).longer (hu b)
  · intro cause h
    rcases run_bind_eq_error.mp h with h | ⟨b, t, -, hrest⟩
    · exact (hw seen).2 cause h
    · cases hrest

/-- One writer after the other, with bytes put around what they write. -/
lemma Visits.seq {w w' : Writer} {u : List UInt8 → List UInt8 → List UInt8}
    (hw : Visits g levels roots w) (hw' : Visits g levels roots' w')
    (hu : ∀ b b', b.length + b'.length ≤ (u b b').length) :
    Visits g levels (roots ++ roots') (w >>= fun b => w' >>= fun b' => pure (u b b')) := by
  intro seen
  constructor
  · intro bytes seen' h
    obtain ⟨b, t, hb, h⟩ := run_bind_eq_ok.mp h
    obtain ⟨b', t', hb', hrest⟩ := run_bind_eq_ok.mp h
    cases hrest
    refine (((hw seen).1 b t hb).append ((hw' t).1 b' _ hb')).longer ?_
    rw [List.length_append]
    exact hu b b'
  · intro cause h
    rcases run_bind_eq_error.mp h with h | ⟨b, t, hb, h⟩
    · exact ((hw seen).2 cause h).append roots'
    · -- the second writer gives up where the walk through the first values has ended
      rcases run_bind_eq_error.mp h with h | ⟨b', t', -, hrest⟩
      · exact .after ((hw seen).1 b t hb).walk ((hw' t).2 cause h)
      · cases hrest

/-! ## Writers of several elements -/

variable {α : Type} {write : α → Writer} {rootsOf : α → List Value}

lemma visits_each {l : List α} (h : ∀ a ∈ l, Visits g levels (rootsOf a) (write a)) :
    Visits g levels (l.flatMap rootsOf) (each write l) := by
  induction l with
  | nil => exact visits_pure []
  | cons a rest ih =>
    rw [List.flatMap_cons]
    refine Visits.seq (h a List.mem_cons_self) (ih fun b hb => h b (List.mem_cons_of_mem a hb)) ?_
    intro b b'
    exact Nat.le_of_eq List.length_append.symm

lemma visits_counted {l : List α} (h : ∀ a ∈ l, Visits g levels (rootsOf a) (write a)) :
    Visits g levels (l.flatMap rootsOf) (counted write l) := by
  refine (visits_each h).map fun b => ?_
  rw [List.length_append]
  omega

lemma visits_entry {write : Value → Writer} (h : ∀ v, Visits g levels [v] (write v))
    (e : Value × Option Value) : Visits g levels (e.1 :: e.2.toList) (entry write e) := by
  obtain ⟨k, v⟩ := e
  cases v with
  | none =>
    refine (h k).map fun b => ?_
    rw [List.length_append]
    omega
  | some v =>
    refine Visits.seq (h k) (h v) fun b b' => ?_
    simp only [List.length_append]
    omega

lemma visits_named {write : Value → Writer} (h : ∀ v, Visits g levels [v] (write v))
    (e : String × Value) : Visits g levels [e.2] (named write e) := by
  refine (h e.2).map fun b => ?_
  rw [List.length_append]
  omega

lemma visits_fields {write : Value → Writer} (h : ∀ v, Visits g levels [v] (write v))
    (fields : Named Value) :
    Visits g levels (fields.map Prod.snd) (counted (named write) fields) := by
  rw [List.map_eq_flatMap]
  exact visits_counted fun e _ => visits_named h e

/-! ## Values -/

/-- A value that is no object visits what its parts visit, one level further down. -/
lemma Visits.of_parts {v : Value} {w : Writer} (hw : Visits g levels v.parts w)
    (hv : ∀ id, v ≠ .object id) : Visits g (levels + 1) [v] w :=
  fun seen => ⟨fun bytes seen' h => ((hw seen).1 bytes seen' h).of_parts hv,
    fun cause h => ((hw seen).2 cause h).of_parts⟩

lemma visits_scalar {v : Value} (hv : v.parts = []) (hobject : ∀ id, v ≠ .object id)
    (bytes : List UInt8) : Visits g (levels + 1) [v] (pure bytes) := by
  have h : Visits g levels v.parts (pure bytes) := by
    rw [hv]
    exact visits_pure bytes
  exact h.of_parts hobject

/-- The three ways of writing a reference: the number of an object that has been written out, a
refusal of an object that is not there, and an object that is written out now. -/
lemma run_object (write : Value → Writer) (id : Nat) (seen : List Nat) :
    (∃ number, seen[number]? = some id ∧ StateT.run (object g write id) seen =
      .ok (ValueTag.reference.byte :: putCount number, seen)) ∨
    (id ∉ seen ∧ g.get? id = none ∧
      StateT.run (object g write id) seen = .error (.missingObject id)) ∨
    (id ∉ seen ∧ ∃ o, g.get? id = some o ∧ StateT.run (object g write id) seen =
      StateT.run (counted (named write) o.fields >>= fun back =>
        pure (ValueTag.object.byte :: putText o.typeName ++ back)) (seen ++ [id])) := by
  rcases hseen : seen.idxOf? id with _ | number
  · have hid : id ∉ seen := List.idxOf?_eq_none_iff.mp hseen
    right
    rcases ho : g.get? id with _ | o
    · left
      exact ⟨hid, rfl, by simp [StateT.run, object, hseen, ho]⟩
    · right
      refine ⟨hid, o, rfl, ?_⟩
      rw [StateT.run_bind]
      simp [StateT.run, object, hseen, ho]
      rfl
  · left
    obtain ⟨hlt, hget, -⟩ := List.idxOf?_eq_some_iff.mp hseen
    exact ⟨number, by rw [List.getElem?_eq_getElem hlt, hget], by simp [StateT.run, object, hseen]⟩

lemma visits_object {write : Value → Writer} (h : ∀ v, Visits g levels [v] (write v)) (id : Nat) :
    Visits g (levels + 1) [.object id] (object g write id) := by
  intro seen
  rcases run_object (g := g) write id seen with
    ⟨number, hnumber, hrun⟩ | ⟨hid, ho, hrun⟩ | ⟨hid, o, ho, hrun⟩ <;> rw [hrun]
  · have hid : id ∈ seen := List.mem_of_getElem? hnumber
    refine ⟨?_, fun cause hr => (by cases hr)⟩
    intro bytes seen' hr
    cases hr
    exact ⟨.again hid .done, by omega⟩
  · refine ⟨fun bytes seen' hr => (by cases hr), ?_⟩
    intro cause hr
    cases hr
    exact Or.inr ⟨0, seen, id, by omega, rfl, .here, ho⟩
  · have hfields := visits_fields h o.fields
    constructor
    · intro bytes seen' hr
      obtain ⟨back, t, hback, hr⟩ := run_bind_eq_ok.mp hr
      cases hr
      refine ((hfields _).1 back _ hback).of_fields ho hid ?_
      simp only [List.cons_append, List.length_cons, List.length_append]
      omega
    · intro cause hr
      rcases run_bind_eq_error.mp hr with hr | ⟨back, t, -, hr⟩
      · exact ((hfields _).2 cause hr).of_fields ho hid
      · cases hr

/-- **The law of the writer of values.** -/
lemma visits_value (g : Graph) (levels : Nat) (v : Value) :
    Visits g levels [v] (value g levels v) := by
  -- on the levels left and not on the value, since an object leads outside of its value
  induction levels generalizing v with
  | zero =>
    intro seen
    refine ⟨fun bytes seen' h => (by cases h), ?_⟩
    intro cause h
    cases h
    exact Or.inl ⟨rfl, seen, v, .here⟩
  | succ levels ih =>
    have hlonger (t : ValueTag) (b : List UInt8) : b.length ≤ (t.byte :: b).length := by simp
    cases v with
    | list items =>
      refine Visits.of_parts (Visits.map ?_ (hlonger .list)) (by simp)
      simpa [Value.parts] using visits_counted (l := items) fun a _ => ih a
    | set items =>
      refine Visits.of_parts (Visits.map ?_ (hlonger .set)) (by simp)
      simpa [Value.parts] using visits_counted (l := items) fun a _ => ih a
    | map entries =>
      refine Visits.of_parts (Visits.map ?_ (hlonger .map)) (by simp)
      exact visits_counted fun e _ => visits_entry ih e
    | object id => exact visits_object ih id
    | bool b => cases b <;> exact visits_scalar rfl (by simp) _
    | null => exact visits_scalar rfl (by simp) _
    | int i => exact visits_scalar rfl (by simp) _
    | float bits => exact visits_scalar rfl (by simp) _
    | str s => exact visits_scalar rfl (by simp) _
    | bytes b => exact visits_scalar rfl (by simp) _
    | enum constant => exact visits_scalar rfl (by simp) _

end Writer

end RemoteCall.Wire
