/-
# Projection is faithful

Nothing is dropped, swapped or made up when a value is fitted, apart from what the declarations say.
The result is the image of the value.  Each object that is met gets, for each declared field, the
image of what was sent under its name, and keeps its fields if there is no declaration for it; and
all other objects are as they were sent.
-/
import RemoteCall.Proofs.Projection.Evolution
import RemoteCall.Proofs.Projection.Rewriting

namespace RemoteCall

/-- No declaration of a type has two fields of one name. -/
def Registry.DistinctFields (r : Registry) : Prop :=
  ∀ s ∈ r.types, (s.fields.map FieldDecl.name).Nodup

instance (r : Registry) : Decidable r.DistinctFields :=
  inferInstanceAs (Decidable (∀ s ∈ r.types, (s.fields.map FieldDecl.name).Nodup))

/-- No object has two fields of one name. -/
def Graph.DistinctFields (g : Graph) : Prop :=
  ∀ id o, g.get? id = some o → o.fields.names.Nodup

lemma Graph.distinctFields_iff {g : Graph} :
    g.DistinctFields ↔ ∀ o ∈ g.nodes, o.fields.names.Nodup := by
  simp only [DistinctFields, get?, Array.mem_iff_getElem?, forall_exists_index]
  exact forall_comm

instance (g : Graph) : Decidable g.DistinctFields :=
  decidable_of_iff _ Graph.distinctFields_iff.symm

namespace Projection

variable {registry : Registry} {options : DecodeOptions} {g : Graph}

/-- The fields of an object that is fitted to a declaration: each declared field with the image of
what was sent under its name, or null if nothing was. -/
def matched (registry : Registry) (options : DecodeOptions) (schema : TypeSchema)
    (sent : Named Value) : Named Value :=
  schema.fields.map fun d =>
    (d.name, image registry options d.tag ((sent.get? d.name).getD .null))

lemma filled_map (ds : List FieldDecl) (f : FieldDecl → Value) :
    filled registry options ds (ds.map f) =
      ds.map fun d => (d.name, image registry options d.tag (f d)) := by
  rw [filled, List.zipWith_map_right, List.zipWith_self]

lemma distinct_of_schemaFor? (hr : registry.DistinctFields) {typeName : String}
    {declared : Option String} {s : TypeSchema}
    (hs : schemaFor? registry typeName declared = some s) :
    (s.fields.map FieldDecl.name).Nodup :=
  hr s (List.mem_of_find?_eq_some (type?_of_schemaFor? hs))

/-- Without repeated names, an object that is fitted to a declaration has the fields that were
sent. -/
lemma nodeImage_eq_matched {schema : TypeSchema}
    (hschema : (schema.fields.map FieldDecl.name).Nodup) {o : Node} (ho : o.fields.names.Nodup) :
    nodeImage registry options o (some schema) =
      { typeName := schema.name, fields := matched registry options schema o.fields } := by
  rw [nodeImage, taken_eq_map hschema ho, filled_map, matched]

/-- The run by which a value was fitted. -/
lemma run_of_project {v : Value} {tag : TypeTag} {path : String} {r : Returned}
    (h : project registry options g v tag path = .ok r) :
    ∃ w q, (projecting registry options g v tag path).run { graph := g } = .ok (w, q) ∧
      r = ⟨q.graph, w⟩ := by
  rw [project_eq] at h
  rcases hrun : (projecting registry options g v tag path).run { graph := g } with e | ⟨w, q⟩ <;>
    rw [hrun] at h <;> cases h
  exact ⟨w, q, rfl, rfl⟩

/-- The run by which arguments were fitted. -/
lemma run_of_bind {params : List FieldDecl} {sent a : Arguments}
    (h : bind registry options params sent = .ok a) :
    ∃ values q, (binding registry options params sent).run { graph := sent.graph } =
      .ok (values, q) ∧ a = ⟨q.graph, values⟩ := by
  rw [bind_eq] at h
  rcases hrun : (binding registry options params sent).run { graph := sent.graph } with
    e | ⟨values, q⟩ <;> rw [hrun] at h <;> cases h
  exact ⟨values, q, rfl, rfl⟩

/-- What a value that was fitted has gone through. -/
lemma exists_run_of_project {v : Value} {tag : TypeTag} {path : String} {r : Returned}
    (h : project registry options g v tag path = .ok r) :
    ∃ q, reached (projecting registry options g v tag path) g = q.visited ∧ r.graph = q.graph ∧
      Rewrites registry options (fun id declared => Exposes id declared tag v) { graph := g } q ∧
      Images registry options (· ∈ q.visited) tag v r.value := by
  obtain ⟨w, q, hrun, rfl⟩ := run_of_project h
  obtain ⟨hrewrites, hpost⟩ := ensures_value rewrites_passage
    (fun _ _ hid => ensures_object g.size hid) path (fun _ _ hid => hid) _ w q hrun
  refine ⟨q, ?_, rfl, hrewrites, hpost _ fun _ hid => hid⟩
  rw [reached, hrun]

/-- The references that parameters expose in some values, one value for each parameter. -/
def Offered (params : List FieldDecl) (vs : List Value) (id : Nat) (declared : Option String) :
    Prop :=
  ∃ x ∈ params.zip vs, Exposes id declared x.1.tag x.2

/-- What arguments that were fitted have gone through. -/
lemma exists_run_of_bind {params : List FieldDecl} {sent a : Arguments}
    (h : bind registry options params sent = .ok a) :
    ∃ q, reached (binding registry options params sent) sent.graph = q.visited ∧
      a.graph = q.graph ∧
      Rewrites registry options (Offered params (taken params sent.values))
        { graph := sent.graph } q ∧
      a.values = filled registry options params (taken params sent.values) ∧
      FieldsConform (ExposesIn (· ∈ q.visited)) params a.values := by
  obtain ⟨values, q, hrun, rfl⟩ := run_of_bind h
  have hbinding : Ensures (Rewrites registry options (Offered params (taken params sent.values)))
      (binding registry options params sent) fun S values =>
        values = filled registry options params (taken params sent.values) ∧
          FieldsConform (ExposesIn S) params values :=
    ensures_fill rewrites_passage params sent.values fun x hx =>
      ensures_value rewrites_passage (fun _ _ hid => ensures_object sent.graph.size hid) x.1.name
        fun _ _ hid => ⟨x, hx, hid⟩
  obtain ⟨hrewrites, hpost⟩ := hbinding _ values q hrun
  obtain ⟨hvalues, hexposes⟩ := hpost (· ∈ q.visited) fun _ hid => hid
  refine ⟨q, ?_, rfl, hrewrites, hvalues, hexposes⟩
  rw [reached, hrun]

/-- An object that has been met was met through a reference that declared types lead to, and has
become what fitting makes of it under the type that is declared there. -/
lemma Rewrites.leads_of_met {P Q : Nat → Option String → Prop} {q : Progress}
    (h : Rewrites registry options P { graph := g } q)
    (hPQ : ∀ id declared, P id declared → Q id declared) {id : Nat} (hid : id ∈ q.visited) :
    ∃ o o' declared, g.get? id = some o ∧ q.graph.get? id = some o' ∧
      registry.Leads q.graph (fun _ => True) Q id declared ∧
      Became registry options (· ∈ q.visited) declared o o' := by
  obtain ⟨o, o', declared, ho, ho', hleads, hbecame⟩ :=
    h.became (· ∈ q.visited) (fun _ h => h) id hid List.not_mem_nil
  refine ⟨o, o', declared, ho, ho', ?_, hbecame⟩
  have hall : registry.Leads q.graph (fun _ => True) P id declared :=
    hleads.mono (fun _ _ => trivial) fun _ _ => rfl
  exact hall.trans fun _ _ hP => .given (hPQ _ _ hP)

lemma Rewrites.of_met {tag : TypeTag} {v : Value} {q : Progress}
    (h : Rewrites registry options (fun id declared => Exposes id declared tag v)
      { graph := g } q) {id : Nat} (hid : id ∈ q.visited) :
    ∃ o o' declared, g.get? id = some o ∧ q.graph.get? id = some o' ∧
      registry.LeadsFrom q.graph tag (image registry options tag v) id declared ∧
      Became registry options (· ∈ q.visited) declared o o' :=
  -- the image exposes what the value does
  h.leads_of_met (fun _ _ hexposes => hexposes.image) hid

/-- Every object that declared types lead to has been met, if those have been that they lead
from. -/
lemma Rewrites.met_of_leads {P Q : Nat → Option String → Prop} {q : Progress}
    (h : Rewrites registry options P { graph := g } q)
    (hQ : ∀ id declared, Q id declared → id ∈ q.visited) {id : Nat} {declared : Option String}
    (hid : registry.Leads q.graph (fun _ => True) Q id declared) : id ∈ q.visited := by
  induction hid with
  | given hgiven => exact hQ _ _ hgiven
  | @field i id outer declared o w _ _ ho hw hexposes ih =>
    obtain ⟨_, o', _, -, ho', -, hbecame⟩ :=
      h.became (· ∈ q.visited) (fun _ h => h) i ih List.not_mem_nil
    obtain rfl : o = o' := Option.some.inj (ho.symm.trans ho')
    exact hbecame.exposes id declared ⟨w, hw, hexposes⟩

/-- **Projection is faithful**: the result is the image of the value, the objects that are met have
become what their declarations make of them, and the others are as they were sent. -/
theorem image_of_projected (hr : registry.DistinctFields) (hg : g.DistinctFields) {v : Value}
    {tag : TypeTag} {path : String} {r : Returned}
    (h : project registry options g v tag path = .ok r) :
    r.value = image registry options tag v ∧ r.graph.size = g.size ∧
      (∀ id ∉ reached (projecting registry options g v tag path) g,
        r.graph.get? id = g.get? id) ∧
      ∀ id ∈ reached (projecting registry options g v tag path) g,
        ∃ o declared, g.get? id = some o ∧ registry.LeadsFrom r.graph tag r.value id declared ∧
          match schemaFor? registry o.typeName declared with
          | none => r.graph.get? id = some o
          | some schema => r.graph.get? id =
              some ⟨schema.name, matched registry options schema o.fields⟩ := by
  obtain ⟨q, hreached, hgraph, hrewrites, hvalue, -⟩ := exists_run_of_project h
  rw [hreached, hgraph]
  refine ⟨hvalue, hrewrites.size, fun id hid => hrewrites.kept id (Or.inr hid), fun id hid => ?_⟩
  obtain ⟨o, o', declared, ho, ho', hleads, hbecame⟩ := hrewrites.of_met hid
  refine ⟨o, declared, ho, by rwa [hvalue], ?_⟩
  rcases hs : schemaFor? registry o.typeName declared with _ | schema
  · rw [ho', hbecame.image, hs, nodeImage]
  · rw [ho', hbecame.image, hs,
      nodeImage_eq_matched (distinct_of_schemaFor? hr hs) (hg id o ho)]

/-- Two objects that refer to each other, one sent under a type that is not declared, with a number
to be converted, a constant that is not known in a list and a key without a value; an object behind
them that is kept, and one that is not met. -/
theorem image_of_projected_ring :
    let registry : Registry :=
      { types := [⟨"Node", [⟨"next", .object "Node", true⟩, ⟨"weight", .float, false⟩,
          ⟨"tints", .map .str (.list (.enum "Colour")), false⟩, ⟨"more", .any, false⟩]⟩]
        enums := [(EnumSchema.mk "Colour" ["RED"] none).withSentinel "UNKNOWN"] }
    let tints := Value.map [(.str "a", some (.list [.enum "BLUE", .enum "RED"])), (.str "b", none)]
    let g : Graph := ⟨#[
      ⟨"Item", [("weight", .int 3), ("note", .str "x"), ("next", .object 1)]⟩,
      ⟨"Node", [("tints", tints), ("more", .object 2), ("next", .object 0)]⟩,
      ⟨"Other", [("list", .list [.object 3])]⟩,
      ⟨"Node", []⟩]⟩
    let fitted : Graph := ⟨#[
      ⟨"Node", [("next", .object 1), ("weight", .float 0x4008000000000000), ("tints", .null),
        ("more", .null)]⟩,
      ⟨"Node", [("next", .object 0), ("weight", .null),
        ("tints", .map [(.str "a", some (.list [.enum "UNKNOWN", .enum "RED"])), (.str "b", none)]),
        ("more", .object 2)]⟩,
      ⟨"Other", [("list", .list [.object 3])]⟩,
      ⟨"Node", []⟩]⟩
    registry.DistinctFields ∧ g.DistinctFields ∧
      project registry {} g (.object 0) (.object "Node") "it" = .ok ⟨fitted, .object 0⟩ ∧
      reached (projecting registry {} g (.object 0) (.object "Node") "it") g = [2, 1, 0] ∧
      ∀ id ∈ [2, 1, 0], ∃ o declared, g.get? id = some o ∧
        registry.LeadsFrom fitted (.object "Node") (.object 0) id declared ∧
        match schemaFor? registry o.typeName declared with
        | none => fitted.get? id = some o
        | some schema =>
          fitted.get? id = some ⟨schema.name, matched registry {} schema o.fields⟩ := by
  intro registry tints g fitted
  have hr : registry.DistinctFields := by
    intro s hs
    rw [List.mem_singleton.mp hs]
    decide
  have hg : g.DistinctFields := by
    intro id o ho
    rcases id with _ | _ | _ | _ | id <;> cases ho <;> decide
  have hproject : project registry {} g (.object 0) (.object "Node") "it" =
      .ok ⟨fitted, .object 0⟩ := by
    rfl
  have hreached : reached (projecting registry {} g (.object 0) (.object "Node") "it") g =
      [2, 1, 0] := rfl
  obtain ⟨-, -, -, hmet⟩ := image_of_projected hr hg hproject
  rw [hreached] at hmet
  exact ⟨hr, hg, hproject, hreached, hmet⟩

end Projection

end RemoteCall
