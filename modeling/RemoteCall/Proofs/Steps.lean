/-
# Steps over a state that may refuse to go on

Readers, writers and projections are sequences of steps: each threads a state and may fail.  A
sequence succeeds exactly when its first step does and the rest succeeds from there; it fails
exactly when one of the two fails.

Clients and servers are lists of tasks, one of which takes a step while the others stay.
-/
import Mathlib.Tactic.Lemma

namespace RemoteCall

variable {σ ε α β : Type}

lemma bind_eq_ok {x : Except ε α} {f : α → Except ε β} {b : β} :
    (x >>= f) = .ok b ↔ ∃ a, x = .ok a ∧ f a = .ok b := by
  constructor
  · intro h
    cases x with
    | error e => cases h
    | ok a => exact ⟨a, rfl, h⟩
  · rintro ⟨a, rfl, h⟩
    exact h

lemma bind_eq_error {x : Except ε α} {f : α → Except ε β} {e : ε} :
    (x >>= f) = .error e ↔ x = .error e ∨ ∃ a, x = .ok a ∧ f a = .error e := by
  rcases x with e' | a <;> simp [bind, Except.bind]

/-- Whether there is a cause can be computed where causes cannot be compared. -/
lemma exists_eq_error {x : Except ε α} (h : x.toBool = false) : ∃ e, x = .error e := by
  cases x with
  | error e => exact ⟨e, rfl⟩
  | ok a => cases h

variable {m : StateT σ (Except ε) α} {k : α → StateT σ (Except ε) β} {s : σ}

lemma run_bind_eq_ok {r : β × σ} :
    StateT.run (m >>= k) s = .ok r ↔
      ∃ a t, StateT.run m s = .ok (a, t) ∧ StateT.run (k a) t = .ok r := by
  rw [StateT.run_bind, bind_eq_ok, Prod.exists]

lemma run_bind_eq_error {e : ε} :
    StateT.run (m >>= k) s = .error e ↔
      StateT.run m s = .error e ∨
        ∃ a t, StateT.run m s = .ok (a, t) ∧ StateT.run (k a) t = .error e := by
  rw [StateT.run_bind, bind_eq_error, Prod.exists]

lemma run_pure_eq_ok {a : α} {r : α × σ} :
    StateT.run (pure a : StateT σ (Except ε) α) s = .ok r ↔ r = (a, s) := by
  constructor
  · intro h
    cases h
    rfl
  · rintro rfl
    rfl

/-! ## Steps under an invariant -/

/-- From a state with the invariant `I`, a step keeps it and has a result as `post` says, or it
fails for a cause as `E` says. -/
def Settles (I : σ → Prop) (E : ε → Prop) (m : StateT σ (Except ε) α) (post : α → Prop) : Prop :=
  ∀ s, I s → (∀ a t, StateT.run m s = .ok (a, t) → I t ∧ post a) ∧
    ∀ e, StateT.run m s = .error e → E e

section Settles

variable {I : σ → Prop} {E : ε → Prop} {post post' : α → Prop} {Q : β → Prop}

lemma settles_pure {a : α} (h : post a) : Settles I E (pure a) post := by
  intro s hs
  constructor
  · intro b t hrun
    cases hrun
    exact ⟨hs, h⟩
  · intro e hrun
    cases hrun

lemma settles_throw {e : ε} (h : E e) : Settles I E (throw e : StateT σ (Except ε) α) post := by
  intro s _
  constructor
  · intro a t hrun
    cases hrun
  · intro e' hrun
    cases hrun
    exact h

lemma Settles.bind (hm : Settles I E m post) (hk : ∀ a, post a → Settles I E (k a) Q) :
    Settles I E (m >>= k) Q := by
  intro s hs
  obtain ⟨hok, herror⟩ := hm s hs
  constructor
  · intro b u hrun
    obtain ⟨a, t, ha, hb⟩ := run_bind_eq_ok.mp hrun
    obtain ⟨ht, hpost⟩ := hok a t ha
    exact (hk a hpost t ht).1 b u hb
  · intro e hrun
    rcases run_bind_eq_error.mp hrun with h | ⟨a, t, ha, he⟩
    · exact herror e h
    · obtain ⟨ht, hpost⟩ := hok a t ha
      exact (hk a hpost t ht).2 e he

lemma Settles.mono (hm : Settles I E m post) (h : ∀ a, post a → post' a) :
    Settles I E m post' :=
  fun s hs => ⟨fun a t hrun => ((hm s hs).1 a t hrun).imp_right (h a), (hm s hs).2⟩

/-- The last step may change the result. -/
lemma Settles.map {f : α → β} (hm : Settles I E m post) (h : ∀ a, post a → Q (f a)) :
    Settles I E (m >>= fun a => pure (f a)) Q :=
  hm.bind fun a ha => settles_pure (h a ha)

end Settles

/-! ## Lists of tasks -/

/-- Tasks in other places stay. -/
lemma mem_set_of_ne {l : List α} {i : Nat} {a b : α} (hb : l[i]? = some b) (ha : a ∈ l)
    (hne : a ≠ b) (x : α) : a ∈ l.set i x := by
  obtain ⟨j, hj⟩ := List.mem_iff_getElem?.mp ha
  have hij : i ≠ j := by
    rintro rfl
    rw [hb] at hj
    cases hj
    exact hne rfl
  exact List.mem_iff_getElem?.mpr ⟨j, by rw [List.getElem?_set_ne hij, hj]⟩

/-- A task is one of those that were there, or the one that has come last. -/
lemma getElem?_concat_cases {l : List α} {a b : α} {i : Nat} (h : (l ++ [b])[i]? = some a) :
    l[i]? = some a ∨ i = l.length ∧ a = b := by
  obtain ⟨hlt, heq⟩ := List.getElem?_eq_some_iff.mp h
  rw [List.length_append, List.length_singleton] at hlt
  rcases Nat.lt_or_eq_of_le (Nat.le_of_lt_succ hlt) with hlt | rfl
  · rw [List.getElem?_append_left hlt] at h
    exact Or.inl h
  · rw [List.getElem_concat_length rfl] at heq
    exact Or.inr ⟨rfl, heq.symm⟩

/-- The task that has taken a step is there in its new stage. -/
lemma mem_set_self {l : List α} {i : Nat} {b : α} (hb : l[i]? = some b) (x : α) : x ∈ l.set i x :=
  List.mem_set (List.getElem?_eq_some_iff.mp hb).1 x

end RemoteCall
