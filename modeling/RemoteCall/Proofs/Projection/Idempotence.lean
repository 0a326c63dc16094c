/-
# Projection is idempotent

A result that has been fitted is fitted already: fitting it once more over its graph changes
neither, however strictly constants are read now.  The second traversal goes through the references
that the first went through, because fitting changes no reference and puts the fields of an object
into the order of their declarations; and it finds each object as the first has left it.
-/
import RemoteCall.Proofs.Projection.Traversal

namespace RemoteCall

/-- Putting an object where it stands changes nothing. -/
lemma Graph.modify_of_get? {g : Graph} {id : Nat} {o : Node} (h : g.get? id = some o) :
    (g.modify id fun _ => o) = g := by
  have hnodes : (g.nodes.modify id fun _ => o) = g.nodes := by
    apply Array.ext_getElem?
    intro i
    rw [Array.getElem?_modify]
    split
    · next hi =>
      subst hi
      rw [show g.nodes[id]? = some o from h, Option.map_some]
    · rfl
  rw [Graph.modify, hnodes]

namespace Projection

variable {registry : Registry} {options options' : DecodeOptions}

/-- What an object becomes is found the same declaration that the object was fitted to. -/
lemma schemaFor?_nodeImage (o : Node) (declared : Option String) :
    schemaFor? registry
        (nodeImage registry options o (schemaFor? registry o.typeName declared)).typeName declared =
      registry.type?
        (nodeImage registry options o (schemaFor? registry o.typeName declared)).typeName := by
  rcases hs : schemaFor? registry o.typeName declared with _ | schema
  · exact hs.trans (type?_of_schemaFor?_none hs).symm
  · have htype := type?_of_schemaFor? hs
    simp only [nodeImage, schemaFor?, htype]

/-- **A traversal can be retraced** over a graph in which the objects that it meets are as it leaves
them and have the fields of their types: the same objects are met, and the graph stays as it
is. -/
lemma Traversal.run_retraced (hr : registry.DistinctFields) {n : Nat}
    {refs : List (Nat × Option String)} {p q : Progress}
    (h : Traversal registry options n p refs q) {g : Graph} {S : Nat → Prop}
    (hleft : ∀ id ∈ q.visited, id ∉ p.visited → g.get? id = q.graph.get? id)
    (hfits : ∀ id ∈ q.visited, id ∉ p.visited →
      ∃ o, g.get? id = some o ∧ registry.Declares (Fits registry S) o) :
    (visit (object registry options' n) refs).run ⟨g, p.visited⟩ = .ok ((), ⟨g, q.visited⟩) := by
  induction h with
  | done => rfl
  | @again n id declared refs p q hid _ ih =>
    exact run_bind_eq_ok.mpr
      ⟨(), _, run_object_of_mem (p := ⟨g, p.visited⟩) hid n, ih hleft hfits⟩
  | @first n id declared refs p t q o o' hid ho ho' hfields hrest ihfields ih =>
    have hmet : id ∈ t.visited := hfields.met List.mem_cons_self
    -- the object stands in the graph as the traversal has left it
    have hput : q.graph.get? id = some o' := by
      have hkept := hfields.kept (Or.inl List.mem_cons_self : id ∈ id :: p.visited ∨ _)
      rw [hrest.kept (Or.inl hmet), Graph.get?_modify_self, hkept, ho, Option.map_some]
    have hget : g.get? id = some o' := (hleft id (hrest.met hmet) hid).trans hput
    have hdeclares : registry.Declares (Fits registry S) o' := by
      obtain ⟨x, hx, hdeclares⟩ := hfits id (hrest.met hmet) hid
      cases hget.symm.trans hx
      exact hdeclares
    have hinner : (visit (object registry options' n) (fieldReferences registry o')).run
        ⟨g, id :: p.visited⟩ = .ok ((), ⟨g, t.visited⟩) := by
      refine ihfields (fun i hi hnew => ?_) fun i hi hnew => ?_
      · rw [hleft i (hrest.met hi) (List.not_mem_of_not_mem_cons hnew), hrest.kept (Or.inl hi)]
        exact Graph.get?_modify_of_ne _ (List.ne_of_not_mem_cons hnew) _
      · exact hfits i (hrest.met hi) (List.not_mem_of_not_mem_cons hnew)
    have hobject : (object registry options' (n + 1) id declared).run ⟨g, p.visited⟩ =
        .ok ((), ⟨g, t.visited⟩) := by
      unfold object
      rw [run_meet_of_not_mem (p := ⟨g, p.visited⟩) hid,
        run_rewrite (p := ⟨g, id :: p.visited⟩) hget, ho', schemaFor?_nodeImage, ← ho',
        node_eq_visit hr hdeclares]
      refine run_bind_eq_ok.mpr ⟨o', ⟨g, t.visited⟩, ?_, ?_⟩
      · exact run_bind_eq_ok.mpr ⟨(), _, hinner, rfl⟩
      · show Except.ok ((), (⟨g.modify id fun _ => o', t.visited⟩ : Progress)) = _
        rw [Graph.modify_of_get? hget]
    refine run_bind_eq_ok.mpr ⟨(), _, hobject, ih (fun i hi hnew => ?_) fun i hi hnew => ?_⟩
    · exact hleft i hi fun h => hnew (hfields.met (List.mem_cons_of_mem _ h))
    · exact hfits i hi fun h => hnew (hfields.met (List.mem_cons_of_mem _ h))

/-- **Projection is idempotent**: fitting a result once more to the type that it was fitted to,
under the same declarations, gives the same value over the same graph, however strictly constants
are read. -/
theorem project_projected (hs : registry.HasSentinels) (hr : registry.DistinctFields) {g : Graph}
    {v : Value} {tag : TypeTag} {path : String} {r : Returned}
    (h : project registry options g v tag path = .ok r) (options' : DecodeOptions)
    (path' : String) : project registry options' r.graph r.value tag path' = .ok r := by
  obtain ⟨w, q, hrun, rfl⟩ := run_of_project h
  -- what the first run has done, and what it went through
  obtain ⟨hrewrites, hpost⟩ := ensures_value rewrites_passage
    (fun _ _ hid => ensures_object g.size hid) path (fun _ _ hid => hid) _ w q hrun
  obtain ⟨rfl, -⟩ := hpost (fun _ => True) fun _ _ => trivial
  obtain ⟨hadvances, hpost⟩ := gives_value hs (meets_object hs g.size) path tag v _ _ q hrun
  obtain ⟨hfits, -⟩ := hpost _ fun _ hid => hid
  have hsettled : Settled registry [] q := hadvances.settled [] (by simp [Settled])
  have hthrough := goesThrough_value (goesThrough_object g.size) path tag v _ _ q hrun
  -- the second run goes the same way
  have hvisit : (visit (object registry options' g.size) (references tag v)).run
      { graph := q.graph } = .ok ((), { graph := q.graph, visited := q.visited }) :=
    hthrough.run_retraced hr (fun _ _ _ => rfl) fun id hid _ => hsettled id hid List.not_mem_nil
  rw [project_eq, projecting, value_eq_visit hfits, hrewrites.size, references_image,
    StateT.run_bind, hvisit]
  rfl

/-- Two objects that refer to each other, one sent under a type that is not declared, with a field
that is dropped, a number that is converted and a constant that is not known; the second time,
constants are read strictly. -/
theorem project_projected_ring :
    let registry : Registry :=
      { types := [⟨"Node", [⟨"next", .object "Node", true⟩, ⟨"weight", .float, false⟩,
          ⟨"tint", .enum "Colour", false⟩]⟩]
        enums := [(EnumSchema.mk "Colour" ["RED"] none).withSentinel "UNKNOWN"] }
    let g : Graph := ⟨#[
      ⟨"Item", [("weight", .int 3), ("note", .str "x"), ("next", .object 1)]⟩,
      ⟨"Node", [("tint", .enum "BLUE"), ("next", .object 0)]⟩]⟩
    let fitted : Graph := ⟨#[
      ⟨"Node", [("next", .object 1), ("weight", .float 0x4008000000000000), ("tint", .null)]⟩,
      ⟨"Node", [("next", .object 0), ("weight", .null), ("tint", .enum "UNKNOWN")]⟩]⟩
    registry.HasSentinels ∧ registry.DistinctFields ∧
      project registry {} g (.object 0) (.object "Node") "it" = .ok ⟨fitted, .object 0⟩ ∧
      project registry { strictEnums := true } fitted (.object 0) (.object "Node") "it" =
        .ok ⟨fitted, .object 0⟩ := by
  intro registry g fitted
  have hs : registry.HasSentinels := by
    intro s hs
    rw [List.mem_singleton.mp hs]
    exact EnumSchema.hasSentinel_withSentinel _ _
  have hr : registry.DistinctFields := by decide
  have hproject : project registry {} g (.object 0) (.object "Node") "it" =
      .ok ⟨fitted, .object 0⟩ := rfl
  exact ⟨hs, hr, hproject, project_projected hs hr hproject _ _⟩

end Projection

end RemoteCall
