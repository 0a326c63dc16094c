/-
# Values that conform to declared types

A value conforms to a type when it has the declared kind all the way down, through the fields of
the objects that it refers to.  Objects may refer to each other in cycles, so conformance is the
greatest relation of this kind and not the least: no object is refused for want of a start.
-/
import Mathlib.Data.List.Forall2
import Mathlib.Tactic.Lemma
import RemoteCall.Schema
import RemoteCall.Value

namespace RemoteCall

/-- The enumeration has the constant that stands for unknown ones. -/
def EnumSchema.HasSentinel (s : EnumSchema) : Prop :=
  ∀ c, s.sentinel = some c → s.contains c = true

lemma EnumSchema.hasSentinel_withSentinel (s : EnumSchema) (c : String) :
    (s.withSentinel c).HasSentinel := by
  intro c' h
  cases h
  exact contains_withSentinel s c

/-- Named values are the declared ones, in the order of the declarations: each mandatory one is
there, and each is in the relation `R` to its declared type. -/
def FieldsConform (R : TypeTag → Value → Prop) (decls : List FieldDecl)
    (fields : Named Value) : Prop :=
  List.Forall₂ (fun d e => e.1 = d.name ∧ (d.mandatory = true → e.2.isNull = false) ∧ R d.tag e.2)
    decls fields

lemma FieldsConform.mono {R S : TypeTag → Value → Prop} (hRS : ∀ tag v, R tag v → S tag v)
    {decls : List FieldDecl} {fields : Named Value} (h : FieldsConform R decls fields) :
    FieldsConform S decls fields :=
  List.Forall₂.imp (fun d e ⟨hn, hm, hR⟩ => ⟨hn, hm, hRS d.tag e.2 hR⟩) h

namespace Registry

/-- Every enumeration has the constant that stands for unknown ones. -/
def HasSentinels (r : Registry) : Prop := ∀ s ∈ r.enums, s.HasSentinel

lemma HasSentinels.contains {r : Registry} (hr : r.HasSentinels) {name c : String} {s : EnumSchema}
    (hs : r.enum? name = some s) (hc : s.sentinel = some c) : s.contains c = true :=
  hr s (List.mem_of_find?_eq_some hs) c hc

/-- A constant is one of its enumeration, if that is declared. -/
def Knows (r : Registry) (enumName c : String) : Prop :=
  ∀ s, r.enum? enumName = some s → s.contains c = true

/-- An object has exactly the fields of its type, if that is declared. -/
def Declares (r : Registry) (R : TypeTag → Value → Prop) (o : Node) : Prop :=
  ∀ s, r.type? o.typeName = some s → FieldsConform R s.fields o.fields

lemma Declares.mono {r : Registry} {R S : TypeTag → Value → Prop}
    (hRS : ∀ tag v, R tag v → S tag v) {o : Node} (h : r.Declares R o) : r.Declares S o :=
  fun s hs => (h s hs).mono hRS

/-- One step of conformance: what a type asks of a value, where `R` is what it asks of the values
that the value is made of or leads to. -/
def ConformsVia (r : Registry) (g : Graph) (R : TypeTag → Value → Prop) : TypeTag → Value → Prop
  | _, .null => True
  | .any, _ => True
  | .bool, .bool _ => True
  | .int, .int _ => True
  | .float, .float _ => True
  | .str, .str _ => True
  | .bytes, .bytes _ => True
  | .enum enumName, .enum c => r.Knows enumName c
  | .list element, .list vs => ∀ v ∈ vs, R element v
  | .set element, .set vs => ∀ v ∈ vs, R element v
  | .map keyTag valueTag, .map es =>
    ∀ e ∈ es, R keyTag e.1 ∧ ∀ v, e.2 = some v → R valueTag v
  | .object _, .object id => ∃ o, g.get? id = some o ∧ r.Declares R o
  | _, _ => False

lemma ConformsVia.mono {r : Registry} {g : Graph} {R S : TypeTag → Value → Prop}
    (hRS : ∀ tag v, R tag v → S tag v) {tag : TypeTag} {v : Value}
    (h : r.ConformsVia g R tag v) : r.ConformsVia g S tag v := by
  unfold ConformsVia at h ⊢
  split at h
  case h_9 | h_10 => exact fun v hv => hRS _ v (h v hv)
  case h_11 => exact fun e he => ⟨hRS _ _ (h e he).1, fun v hv => hRS _ v ((h e he).2 v hv)⟩
  case h_12 =>
    obtain ⟨o, ho, hR⟩ := h
    exact ⟨o, ho, hR.mono hRS⟩
  all_goals exact h

/-- A value over a graph conforms to a type: some relation between types and values holds for the
two, and asks of all that it holds for no less than one step of conformance does. -/
def Conforms (r : Registry) (g : Graph) (tag : TypeTag) (v : Value) : Prop :=
  ∃ R : TypeTag → Value → Prop, (∀ tag v, R tag v → r.ConformsVia g R tag v) ∧ R tag v

/-- Conformance is its own step: what a type asks of a value, it asks of the parts of the value and
of the fields of its objects again. -/
lemma conforms_iff {r : Registry} {g : Graph} {tag : TypeTag} {v : Value} :
    r.Conforms g tag v ↔ r.ConformsVia g (r.Conforms g) tag v := by
  have hstep : ∀ tag v, r.Conforms g tag v → r.ConformsVia g (r.Conforms g) tag v := by
    rintro tag v ⟨R, hR, hv⟩
    exact (hR tag v hv).mono fun tag' v' hv' => ⟨R, hR, hv'⟩
  constructor
  · exact hstep tag v
  · intro h
    exact ⟨r.ConformsVia g (r.Conforms g), fun tag v hv => hv.mono hstep, h⟩

end Registry

end RemoteCall
