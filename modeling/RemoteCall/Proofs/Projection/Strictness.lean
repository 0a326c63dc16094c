/-
# Reading constants strictly

Whether constants are read strictly matters in one place only: where a constant is not one of its
enumeration, and that has another constant to stand for it.  Up to the first such place a strict
projection goes the same way as a lenient one, and there it ends in a misfit that names the
enumeration and the constant.  So what is read strictly is read leniently with the same result.
-/
import Mathlib
import RemoteCall.Message
import RemoteCall.Proofs.Projection.Evolution

namespace RemoteCall

/-- A constant is not one of its enumeration, which has another one to stand for it. -/
def Registry.Replaces (r : Registry) (enumName c : String) : Prop :=
  ∃ s sentinel, r.enum? enumName = some s ∧ s.contains c = false ∧ s.sentinel = some sentinel

namespace Projection

/-- Two outcomes are the same, or the first is a misfit that names a constant which may be
replaced. -/
def RefusesMore {α : Type} (registry : Registry) (x x' : Except Misfit α) : Prop :=
  x = x' ∨ ∃ enumName c, registry.Replaces enumName c ∧ x = .error (.unknownConstant enumName c)

/-- The first step does what the second does, or refuses a constant that may be replaced. -/
def Stricter {α : Type} (registry : Registry) (m m' : Step α) : Prop :=
  ∀ p, RefusesMore registry (m.run p) (m'.run p)

variable {registry : Registry}

/-! ## Steps -/

section Steps

variable {α β : Type} {m m' : Step α} {k k' : α → Step β}

lemma stricter_refl (m : Step α) : Stricter registry m m := fun _ => Or.inl rfl

lemma Stricter.bind (hm : Stricter registry m m') (hk : ∀ a, Stricter registry (k a) (k' a)) :
    Stricter registry (m >>= k) (m' >>= k') := by
  intro p
  rcases hm p with hsame | ⟨enumName, c, hc, herror⟩
  · rw [StateT.run_bind, StateT.run_bind, hsame]
    rcases m'.run p with e | ⟨a, t⟩
    · exact Or.inl rfl
    · exact hk a t
  · exact Or.inr ⟨enumName, c, hc, run_bind_eq_error.mpr (Or.inl herror)⟩

lemma stricter_congruence : Congruence (Stricter registry) where
  pure a := stricter_refl (pure a)
  throw e := stricter_refl (throw e)
  bind := Stricter.bind

end Steps

/-- This is the one place where strictness matters. -/
lemma stricter_constant (enumName c : String) :
    Stricter registry (StateT.lift (constant registry { strictEnums := true } enumName c))
      (StateT.lift (constant registry {} enumName c)) := by
  intro p
  rcases hs : registry.enum? enumName with _ | s
  · exact Or.inl (by simp only [constant, hs])
  rcases hc : s.contains c with _ | _
  · rcases hsentinel : s.sentinel with _ | sentinel
    · exact Or.inl (by simp only [constant, hs, hc, hsentinel])
    · refine Or.inr ⟨enumName, c, ⟨s, sentinel, hs, hc, hsentinel⟩, ?_⟩
      simp only [constant, hs, hc, hsentinel]
      rfl
  · exact Or.inl (by simp only [constant, hs, hc, if_true])

/-! ## Objects -/

lemma stricter_node {fit fit' : String → TypeTag → Value → Step Value}
    (hfit : ∀ path tag v, Stricter registry (fit path tag v) (fit' path tag v)) (o : Node)
    (schema : Option TypeSchema) : Stricter registry (node fit o schema) (node fit' o schema) := by
  cases schema with
  | none =>
    exact stricter_congruence.map (stricter_congruence.keep fun e _ => hfit e.1 .any e.2) _
  | some schema =>
    exact stricter_congruence.map
      (stricter_congruence.fill (fun d v => hfit _ d.tag v) schema.fields o.fields) _

lemma stricter_meet {first first' : Nat → Option String → Step Unit} {id : Nat}
    {declared : Option String} (h : Stricter registry (first id declared) (first' id declared)) :
    Stricter registry (meet first id declared) (meet first' id declared) := by
  refine (stricter_refl get).bind fun p => ?_
  split
  · exact stricter_refl _
  · exact (stricter_refl _).bind fun _ => h

lemma stricter_rewrite {fit fit' : String → TypeTag → Value → Step Value}
    (hfit : ∀ path tag v, Stricter registry (fit path tag v) (fit' path tag v)) (id : Nat)
    (declared : Option String) :
    Stricter registry (rewrite registry fit id declared) (rewrite registry fit' id declared) := by
  refine (stricter_refl get).bind fun p => ?_
  rcases p.graph.get? id with _ | o
  · exact stricter_refl _
  · exact (stricter_node hfit o _).bind fun o' => stricter_refl _

/-- **A value is read strictly or leniently with the same result**, unless a constant in it or in
the objects that it leads to is replaced. -/
lemma stricter_value (unmet : Nat) (path : String) (tag : TypeTag) (v : Value) :
    Stricter registry
      (value registry { strictEnums := true } (object registry { strictEnums := true } unmet) path
        tag v)
      (value registry {} (object registry {} unmet) path tag v) := by
  induction unmet generalizing path tag v with
  | zero =>
    exact stricter_congruence.value stricter_constant (fun id _ declared => stricter_refl _) tag
  | succ unmet ih =>
    refine stricter_congruence.value stricter_constant (fun id _ declared => ?_) tag
    exact stricter_meet (stricter_rewrite ih id declared)

/-! ## Results and arguments -/

/-- What succeeds in the first way succeeds in the second with the same result; and what succeeds in
the second only, fails in the first at a constant that is not one of its enumeration, where the
enumeration is declared and has another one to stand for it. -/
def Refines {α : Type} (registry : Registry) (x x' : Except Failure α) : Prop :=
  (∀ a, x = .ok a → x' = .ok a) ∧
    ∀ a f, x' = .ok a → x = .error f →
      ∃ enumName c, f = .enumDeserialisation enumName c ∧ registry.Replaces enumName c

lemma refines_refl {α : Type} (x : Except Failure α) : Refines registry x x := by
  refine ⟨fun _ h => h, fun a f hok herror => ?_⟩
  rw [hok] at herror
  cases herror

lemma refines_of_refusesMore {α : Type} {x x' : Except Misfit α}
    (h : RefusesMore registry x x') :
    Refines registry (x.mapError Misfit.toFailure) (x'.mapError Misfit.toFailure) := by
  rcases h with rfl | ⟨enumName, c, hc, rfl⟩
  · exact refines_refl _
  · constructor
    · intro a hok
      cases hok
    · intro a f _ herror
      cases herror
      exact ⟨enumName, c, rfl, hc⟩

lemma RefusesMore.map {α β : Type} {x x' : Except Misfit α} (h : RefusesMore registry x x')
    (f : α → β) : RefusesMore registry (x.map f) (x'.map f) := by
  rcases h with rfl | ⟨enumName, c, hc, rfl⟩
  · exact Or.inl rfl
  · exact Or.inr ⟨enumName, c, hc, rfl⟩

lemma refusesMore_project (g : Graph) (v : Value) (tag : TypeTag) (path : String) :
    RefusesMore registry (project registry { strictEnums := true } g v tag path)
      (project registry {} g v tag path) := by
  rw [project_eq, project_eq]
  exact (stricter_value g.size path tag v _).map _

lemma refusesMore_bind (params : List FieldDecl) (sent : Arguments) :
    RefusesMore registry (bind registry { strictEnums := true } params sent)
      (bind registry {} params sent) := by
  rw [bind_eq, bind_eq]
  exact (stricter_congruence.fill (fun d v => stricter_value sent.graph.size d.name d.tag v) params
    sent.values _).map _

end Projection

open Projection

lemma Returned.decode_of_read {registry : Registry} {options : DecodeOptions}
    {returns : Option TypeTag} {payload : List UInt8} {sent : Returned}
    (h : read.run payload = .ok sent) :
    decode registry options returns payload =
      (project registry options sent.graph sent.value (returns.getD .any) "result").mapError
        Misfit.toFailure := by
  simp only [decode, h]
  cases project registry options sent.graph sent.value (returns.getD .any) "result" <;> rfl

lemma Request.bind_eq (registry : Registry) (options : DecodeOptions) (params : List FieldDecl)
    (request : Request) :
    request.bind registry options params =
      (Projection.bind registry options params request.arguments).mapError Misfit.toFailure := by
  rw [bind]
  cases Projection.bind registry options params request.arguments <;> rfl

/-- **What is read strictly is read leniently with the same result**, and a failure that only the
strict reading ends in names a constant that the lenient one has replaced: so it is with results of
any declared type, or of none, and with the arguments of requests. -/
theorem lenient_of_strict (registry : Registry) :
    (∀ returns payload,
      Refines registry (Returned.decode registry { strictEnums := true } returns payload)
        (Returned.decode registry {} returns payload)) ∧
    ∀ params (request : Request),
      Refines registry (request.bind registry { strictEnums := true } params)
        (request.bind registry {} params) := by
  constructor
  · intro returns payload
    rcases hread : Returned.read.run payload with e | sent
    · simp only [Returned.decode, hread]
      exact refines_refl _
    · rw [Returned.decode_of_read hread, Returned.decode_of_read hread]
      exact refines_of_refusesMore (refusesMore_project ..)
  · intro params request
    rw [Request.bind_eq, Request.bind_eq]
    exact refines_of_refusesMore (refusesMore_bind ..)

/-- A list of constants, of which the enumeration has one and lacks one. -/
theorem lenient_of_strict_colours :
    let registry : Registry :=
      { enums := [(EnumSchema.mk "Colour" ["RED"] none).withSentinel "UNKNOWN"] }
    let returns : Option TypeTag := some (.list (.enum "Colour"))
    let payload : List UInt8 := [8, 2, 7, 3, 82, 69, 68, 7, 4, 66, 76, 85, 69]
    let failure : Failure := .enumDeserialisation "Colour" "BLUE"
    Returned.decode registry {} returns payload =
        .ok ⟨{}, .list [.enum "RED", .enum "UNKNOWN"]⟩ ∧
      Returned.decode registry { strictEnums := true } returns payload = .error failure ∧
      ∃ enumName c, failure = .enumDeserialisation enumName c ∧ registry.Replaces enumName c := by
  intro registry returns payload failure
  have hlenient : Returned.decode registry {} returns payload =
      .ok ⟨{}, .list [.enum "RED", .enum "UNKNOWN"]⟩ := by
    cbv
  have hstrict : Returned.decode registry { strictEnums := true } returns payload =
      .error failure := by
    cbv
  exact ⟨hlenient, hstrict,
    ((lenient_of_strict registry).1 returns payload).2 _ _ hlenient hstrict⟩

end RemoteCall
