/-
# Two projections side by side

Two projections are coupled by a relation between their states: when they start in related states,
either both fail with the same misfit, or both succeed, give related results and end in related
states.  A value takes a projection through the references in it and through nothing else, so two
projections of one value are coupled as soon as they are where these references lead.
-/
import RemoteCall.Proofs.Projection.Congruence
import RemoteCall.Proofs.Steps

namespace RemoteCall

namespace Projection

/-- Two outcomes are one misfit, or related results with related states. -/
def Paired {α β : Type} (S : Progress → Progress → Prop) (R : α → β → Prop)
    (x : Except Misfit (α × Progress)) (x' : Except Misfit (β × Progress)) : Prop :=
  (∃ e, x = .error e ∧ x' = .error e) ∨
    ∃ a b q q', x = .ok (a, q) ∧ x' = .ok (b, q') ∧ R a b ∧ S q q'

/-- Two steps that start in states related by `S` give results related by `R`, or the same misfit,
and leave their states related. -/
def Coupled {α β : Type} (S : Progress → Progress → Prop) (R : α → β → Prop) (m : Step α)
    (m' : Step β) : Prop :=
  ∀ p p', S p p' → Paired S R (m.run p) (m'.run p')

variable {S : Progress → Progress → Prop}

/-- Paired outcomes are failures together, or results together, whatever is made of the results. -/
lemma Paired.map {α β γ γ' : Type} {R : α → β → Prop} {x : Except Misfit (α × Progress)}
    {x' : Except Misfit (β × Progress)} (h : Paired S R x x') (f : α × Progress → γ)
    (f' : β × Progress → γ') :
    (∀ e, x.map f = .error e ↔ x'.map f' = .error e) ∧
      ∀ r, x.map f = .ok r → ∃ a b q q', x = .ok (a, q) ∧ x' = .ok (b, q') ∧ r = f (a, q) ∧
        R a b ∧ S q q' := by
  rcases h with ⟨e, rfl, rfl⟩ | ⟨a, b, q, q', rfl, rfl, hR, hS⟩
  · refine ⟨fun e' => ?_, fun r hr => ?_⟩
    · simp [Except.map]
    · cases hr
  · refine ⟨fun e => ?_, fun r hr => ?_⟩
    · simp [Except.map]
    · cases hr
      exact ⟨a, b, q, q', rfl, rfl, rfl, hR, hS⟩

/-! ## Sequences of steps -/

section Sequences

variable {α α' β β' : Type} {R : α → α' → Prop} {T : β → β' → Prop} {m : Step α} {m' : Step α'}
  {k : α → Step β} {k' : α' → Step β'}

lemma coupled_pure {a : α} {a' : α'} (h : R a a') : Coupled S R (pure a) (pure a') :=
  fun p p' hp => Or.inr ⟨a, a', p, p', rfl, rfl, h, hp⟩

lemma coupled_throw (e : Misfit) : Coupled S R (throw e) (throw e) :=
  fun _ _ _ => Or.inl ⟨e, rfl, rfl⟩

lemma Coupled.bind (hm : Coupled S R m m') (hk : ∀ a a', R a a' → Coupled S T (k a) (k' a')) :
    Coupled S T (m >>= k) (m' >>= k') := by
  intro p p' hp
  rcases hm p p' hp with ⟨e, he, he'⟩ | ⟨a, a', t, t', ht, ht', ha, hS⟩
  · exact Or.inl ⟨e, run_bind_eq_error.mpr (Or.inl he), run_bind_eq_error.mpr (Or.inl he')⟩
  · rcases hk a a' ha t t' hS with ⟨e, he, he'⟩ | ⟨b, b', q, q', hq, hq', hb, hS'⟩
    · exact Or.inl ⟨e, run_bind_eq_error.mpr (Or.inr ⟨a, t, ht, he⟩),
        run_bind_eq_error.mpr (Or.inr ⟨a', t', ht', he'⟩)⟩
    · exact Or.inr ⟨b, b', q, q', run_bind_eq_ok.mpr ⟨a, t, ht, hq⟩,
        run_bind_eq_ok.mpr ⟨a', t', ht', hq'⟩, hb, hS'⟩

lemma Coupled.map (hm : Coupled S R m m') {f : α → β} {f' : α' → β'}
    (hf : ∀ a a', R a a' → T (f a) (f' a')) :
    Coupled S T (m >>= fun a => pure (f a)) (m' >>= fun a => pure (f' a)) :=
  hm.bind fun a a' ha => coupled_pure (hf a a' ha)

/-- One of the two results may be changed. -/
lemma Coupled.map_right (hm : Coupled S R m m') {T : α → β' → Prop} {f' : α' → β'}
    (hf : ∀ a a', R a a' → T a (f' a')) :
    Coupled S T m (m' >>= fun a => pure (f' a)) := by
  rw [← bind_pure m]
  exact hm.map hf

/-- Steps with the same result are coupled when they go on the same way from there. -/
lemma Coupled.bind_eq {m' : Step α} {k' : α → Step β'} (hm : Coupled S Eq m m')
    (hk : ∀ a, Coupled S T (k a) (k' a)) : Coupled S T (m >>= k) (m' >>= k') :=
  hm.bind fun a _ ha => ha ▸ hk a

end Sequences

/-- Steps that are coupled, with the same results, may be put together. -/
lemma coupled_congruence : Congruence (Coupled S Eq) where
  pure _ := coupled_pure rfl
  throw := coupled_throw
  bind := Coupled.bind_eq

/-- **Projections of one value are coupled** if they are where its references lead, and constants
are fitted in the same way. -/
lemma coupled_value {registry registry' : Registry} {options options' : DecodeOptions}
    {object object' : Nat → Option String → Step Unit} {path : String}
    (hconstant : ∀ enumName c,
      constant registry' options' enumName c = constant registry options enumName c)
    {v : Value} (h : ∀ id, v.Mentions id → ∀ declared,
      Coupled S Eq (object id declared) (object' id declared)) (tag : TypeTag) :
    Coupled S Eq (value registry options object path tag v)
      (value registry' options' object' path tag v) :=
  coupled_congruence.value (fun enumName c => hconstant enumName c ▸ coupled_congruence.lift _) h
    tag

/-! ## Objects -/

section Objects

variable {first first' : Nat → Option String → Step Unit} {declared : Option String} {id : Nat}
  {p : Progress}

lemma run_meet_of_mem (hid : id ∈ p.visited) :
    (meet first id declared).run p = .ok ((), p) := by
  refine run_bind_eq_ok.mpr ⟨p, p, rfl, ?_⟩
  rw [if_pos (List.contains_iff_mem.mpr hid)]
  rfl

lemma run_meet_of_not_mem (hid : id ∉ p.visited) :
    (meet first id declared).run p =
      (first id declared).run { p with visited := id :: p.visited } := by
  have hcontains : ¬ p.visited.contains id = true := fun h => hid (List.contains_iff_mem.mp h)
  show StateT.run (if p.visited.contains id then _ else _) p = _
  rw [if_neg hcontains]
  rfl

/-- Fitting an object at the first reference that leads to it is coupled, if fitting it is when it
has just been met. -/
lemma coupled_meet (hvisited : ∀ p p', S p p' → p'.visited = p.visited)
    (h : ∀ p p', S p p' → id ∉ p.visited →
      Paired S Eq ((first id declared).run { p with visited := id :: p.visited })
        ((first' id declared).run { p' with visited := id :: p'.visited })) :
    Coupled S Eq (meet first id declared) (meet first' id declared) := by
  intro p p' hp
  have hsame := hvisited p p' hp
  by_cases hid : id ∈ p.visited
  · rw [run_meet_of_mem hid, run_meet_of_mem (hsame ▸ hid)]
    exact Or.inr ⟨(), (), p, p', rfl, rfl, rfl, hp⟩
  · rw [run_meet_of_not_mem hid, run_meet_of_not_mem (hsame ▸ hid)]
    exact h p p' hp hid

lemma run_rewrite {registry : Registry} {fit : String → TypeTag → Value → Step Value} {o : Node}
    (ho : p.graph.get? id = some o) :
    (rewrite registry fit id declared).run p =
      StateT.run (node fit o (schemaFor? registry o.typeName declared) >>= fun o' =>
        modify fun t => { t with graph := t.graph.modify id fun _ => o' }) p := by
  rw [rewrite, StateT.run_bind, StateT.run_get, pure_bind, ho]

lemma run_rewrite_of_none {registry : Registry} {fit : String → TypeTag → Value → Step Value}
    (ho : p.graph.get? id = none) :
    (rewrite registry fit id declared).run p = .error (.missingObject id) := by
  rw [rewrite, StateT.run_bind, StateT.run_get, pure_bind, ho]
  rfl

end Objects

end Projection

end RemoteCall
