/-
# Which objects are fitted to their declarations

A result without a declared type may be any value.  Its objects are still fitted to the declarations
of their own types, as far as declared types lead to them: from the result itself, through the
fields of objects, and through collections that are declared as such.  A collection where any value
is allowed is passed over, so an object in one keeps fields that its declaration lacks, or lacks
mandatory ones.
-/
import Mathlib
import RemoteCall.Message
import RemoteCall.Proofs.Projection.Faithful

namespace RemoteCall

open Projection

variable {registry : Registry} {options : DecodeOptions}

/-- Every object that declared types lead to has been met. -/
lemma Projection.met_of_leadsFrom {P : Nat → Option String → Prop} {g : Graph} {q : Progress}
    (hq : Rewrites registry options P { graph := g } q) {tag : TypeTag} {v : Value}
    (hv : ExposesIn (· ∈ q.visited) tag v) {id : Nat} {declared : Option String}
    (h : registry.LeadsFrom q.graph tag v id declared) : id ∈ q.visited :=
  hq.met_of_leads hv h

namespace Returned

/-- **The objects of a result that declared types lead to are fitted to their declarations**: each
has exactly the declared fields of its type if that is declared, with all mandatory ones.  The
others are as they were sent. -/
theorem declares_of_leadsFrom {returns : Option TypeTag} {payload : List UInt8} {r : Returned}
    (h : decode registry options returns payload = .ok r) :
    (∀ id declared, registry.LeadsFrom r.graph (returns.getD .any) r.value id declared →
        ∃ o, r.graph.get? id = some o ∧ registry.Declares (fun _ _ => True) o) ∧
      ∃ sent, read.run payload = .ok sent ∧
        ∀ id, (∀ declared,
            ¬ registry.LeadsFrom r.graph (returns.getD .any) r.value id declared) →
          r.graph.get? id = sent.graph.get? id := by
  rw [decode] at h
  split at h
  · cases h
  next sent hread =>
  split at h
  case h_2 => cases h
  next r' hproject =>
  cases h
  obtain ⟨q, -, hgraph, hrewrites, hvalue, hexposes⟩ := exists_run_of_project hproject
  rw [hgraph]
  refine ⟨fun id declared hid => ?_, sent, hread, fun id hid => ?_⟩
  · obtain ⟨_, o', _, -, ho', -, hbecame⟩ :=
      hrewrites.of_met (met_of_leadsFrom hrewrites hexposes hid)
    exact ⟨o', ho', hbecame.declares⟩
  · refine hrewrites.kept id (Or.inr fun hmet => ?_)
    obtain ⟨_, _, declared, -, -, hleads, -⟩ := hrewrites.of_met hmet
    exact hid declared (by rwa [hvalue])

/-- The declaration of a type with one mandatory and one optional field. -/
def points : Registry := { types := [⟨"Point", [⟨"x", .int, true⟩, ⟨"y", .float, false⟩]⟩] }

/-- A point in a field of an object of an unknown type, sent with a field that is not declared. -/
theorem declares_of_leadsFrom_box :
    let payload : List UInt8 := [0x0B, 3, 66, 111, 120, 1, 4, 105, 116, 101, 109,
      0x0B, 5, 80, 111, 105, 110, 116, 2, 3, 116, 97, 103, 0, 1, 120, 3, 2]
    let r : Returned := ⟨⟨#[⟨"Box", [("item", .object 1)]⟩,
      ⟨"Point", [("x", .int 1), ("y", .null)]⟩]⟩, .object 0⟩
    decode points {} none payload = .ok r ∧ points.LeadsFrom r.graph .any r.value 1 none ∧
      ∃ o, r.graph.get? 1 = some o ∧ points.Declares (fun _ _ => True) o := by
  intro payload r
  have hdecode : decode points {} none payload = .ok r := by
    cbv
  have hleads : points.LeadsFrom r.graph .any r.value 1 none :=
    .field (.given .any) trivial rfl List.mem_cons_self .any
  exact ⟨hdecode, hleads, (declares_of_leadsFrom hdecode).1 1 none hleads⟩

/-- In a list where any value is allowed, a point keeps the field that is not declared. -/
theorem undeclared_in_list :
    let payload : List UInt8 := [0x08, 1,
      0x0B, 5, 80, 111, 105, 110, 116, 2, 3, 116, 97, 103, 0, 1, 120, 3, 2]
    let o : Node := ⟨"Point", [("tag", .null), ("x", .int 1)]⟩
    let r : Returned := ⟨⟨#[o]⟩, .list [.object 0]⟩
    decode points {} none payload = .ok r ∧ decode points {} (some .any) payload = .ok r ∧
      r.graph.Reaches 0 r.value ∧ r.graph.get? 0 = some o ∧
      ¬ points.Declares (fun _ _ => True) o := by
  intro payload o r
  refine ⟨by cbv, by cbv, .part (w := .object 0) List.mem_cons_self .object, rfl, fun h => ?_⟩
  cases h _ rfl with
  | cons hx _ => exact absurd hx.1 (by decide)

end Returned

end RemoteCall
