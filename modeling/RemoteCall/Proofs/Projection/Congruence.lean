/-
# Two projections of one value

A value takes a projection through constants and through references, and through nothing else that
depends on how it is projected.  So whatever may be said of two sequences of steps as soon as it is
said of their parts, holds of two projections of a value if it holds of what they do with constants
and with references.
-/
import RemoteCall.Projection
import RemoteCall.Proofs.Objects

namespace RemoteCall

namespace Projection

/-- A relation between two steps that goes over from the parts of a sequence to the sequence. -/
structure Congruence (R : ∀ {α : Type}, Step α → Step α → Prop) : Prop where
  pure : ∀ {α : Type} (a : α), R (pure a) (pure a)
  throw : ∀ {α : Type} (e : Misfit), R (throw e : Step α) (throw e)
  bind : ∀ {α β : Type} {m m' : Step α} {k k' : α → Step β},
    R m m' → (∀ a, R (k a) (k' a)) → R (m >>= k) (m' >>= k')

namespace Congruence

variable {R : ∀ {α : Type}, Step α → Step α → Prop}

lemma map (hR : Congruence R) {α β : Type} {m m' : Step α} (hm : R m m') (f : α → β) :
    R (m >>= fun a => Pure.pure (f a)) (m' >>= fun a => Pure.pure (f a)) :=
  hR.bind hm fun a => hR.pure (f a)

lemma lift (hR : Congruence R) {α : Type} (x : Except Misfit α) :
    R (StateT.lift x : Step α) (StateT.lift x) := by
  cases x with
  | error e => exact hR.throw e
  | ok a => exact hR.pure a

/-! ## Values -/

section Values

variable {registry registry' : Registry} {options options' : DecodeOptions}
  {object object' : Nat → Option String → Step Unit} {path : String}

lemma items (hR : Congruence R) {element : TypeTag} {vs : List Value}
    (h : ∀ v ∈ vs, R (value registry options object path element v)
      (value registry' options' object' path element v)) :
    R (items registry options object path element vs)
      (items registry' options' object' path element vs) := by
  induction vs with
  | nil => exact hR.pure []
  | cons v rest ih =>
    obtain ⟨hv, hrest⟩ := List.forall_mem_cons.mp h
    exact hR.bind hv fun w => hR.map (ih hrest) _

lemma entries (hR : Congruence R) {keyTag valueTag : TypeTag} {es : List (Value × Option Value)}
    (h : ∀ v ∈ (Value.map es).parts, ∀ tag, R (value registry options object path tag v)
      (value registry' options' object' path tag v)) :
    R (entries registry options object path keyTag valueTag es)
      (entries registry' options' object' path keyTag valueTag es) := by
  induction es with
  | nil => exact hR.pure []
  | cons e rest ih =>
    obtain ⟨k, v⟩ := e
    have hrest := ih fun w hw => h w (List.mem_append_right _ hw)
    have hk := h k List.mem_cons_self keyTag
    cases v with
    | none => exact hR.bind hk fun k' => hR.map hrest _
    | some v =>
      have hv := h v (List.mem_cons_of_mem _ List.mem_cons_self) valueTag
      exact hR.bind hk fun k' => hR.bind hv fun v' => hR.map hrest _

/-- **Projections of one value are related** if they are where its constants and its references
lead. -/
lemma value (hR : Congruence R)
    (hconstant : ∀ enumName c, R (StateT.lift (constant registry options enumName c))
      (StateT.lift (constant registry' options' enumName c)))
    {v : Value} (h : ∀ id, v.Mentions id → ∀ declared, R (object id declared) (object' id declared))
    (tag : TypeTag) :
    R (value registry options object path tag v)
      (value registry' options' object' path tag v) := by
  induction v using Value.parts_induction generalizing tag with
  | h v ih =>
  have hparts : ∀ w ∈ v.parts, ∀ t, R (Projection.value registry options object path t w)
      (Projection.value registry' options' object' path t w) :=
    fun w hw t => ih w hw (fun id hid => h id (.part hw hid)) t
  -- the forms that are taken apart; every other kind and type is done with at once
  cases v with
  | enum c =>
    cases tag with
    | enum enumName => exact hR.map (hconstant enumName c) _
    | any => exact hR.pure _
    | _ => exact hR.throw _
  | list vs =>
    cases tag with
    | list element => exact hR.map (hR.items fun v hv => hparts v hv element) _
    | any => exact hR.pure _
    | _ => exact hR.throw _
  | set vs =>
    cases tag with
    | set element => exact hR.map (hR.items fun v hv => hparts v hv element) _
    | any => exact hR.pure _
    | _ => exact hR.throw _
  | map es =>
    cases tag with
    | map keyTag valueTag => exact hR.map (hR.entries hparts) _
    | any => exact hR.pure _
    | _ => exact hR.throw _
  | object id =>
    cases tag with
    | any => exact hR.map (h id .object none) _
    | object name => exact hR.map (h id .object (some name)) _
    | _ => exact hR.throw _
  | _ => cases tag <;> first | exact hR.pure _ | exact hR.throw _

end Values

/-! ## Fields -/

section Fields

lemma place (hR : Congruence R) {fit fit' : FieldDecl → Value → Step Value}
    {missing : FieldDecl → Misfit} {d : FieldDecl} {found : Value}
    (hfit : R (fit d found) (fit' d found)) :
    R (place fit missing d found) (place fit' missing d found) := by
  unfold Projection.place
  split
  · split
    · exact hR.throw _
    · exact hR.pure _
  · exact hfit

lemma fill (hR : Congruence R) {fit fit' : FieldDecl → Value → Step Value}
    {missing : FieldDecl → Misfit} (hfit : ∀ d v, R (fit d v) (fit' d v)) (ds : List FieldDecl)
    (sent : Named Value) : R (fill fit missing ds sent) (fill fit' missing ds sent) := by
  induction ds generalizing sent with
  | nil => exact hR.pure []
  | cons d ds ih =>
    unfold Projection.fill
    exact hR.bind (hR.place (hfit d _)) fun v => hR.map (ih _) _

lemma keep (hR : Congruence R) {fit fit' : String → Value → Step Value} {fields : Named Value}
    (hfit : ∀ e ∈ fields, R (fit e.1 e.2) (fit' e.1 e.2)) :
    R (keep fit fields) (keep fit' fields) := by
  induction fields with
  | nil => exact hR.pure []
  | cons e rest ih =>
    obtain ⟨name, v⟩ := e
    obtain ⟨hv, hrest⟩ := List.forall_mem_cons.mp hfit
    exact hR.bind hv fun w => hR.map (ih hrest) _

end Fields

end Congruence

end Projection

end RemoteCall
