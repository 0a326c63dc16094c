/-
# A newer sender does not disturb an older reader

A value is fitted to the same result, and the objects that this meets become the same, whether or
not the sender has given objects further fields that the reader does not declare; and so are
arguments, also when the sender adds arguments that the reader does not know.
-/
import RemoteCall.Proofs.Projection.Lockstep

namespace RemoteCall

namespace Projection

variable {registry : Registry} {options : DecodeOptions} {g g' : Graph}

/-- The objects that are met by steps which start over a graph with nothing met. -/
def reached {α : Type} (m : Step α) (g : Graph) : List Nat :=
  match m.run { graph := g } with
  | .ok (_, p) => p.visited
  | .error _ => []

/-- The steps of fitting a value over a graph. -/
def projecting (registry : Registry) (options : DecodeOptions) (g : Graph) (v : Value)
    (tag : TypeTag) (path : String) : Step Value :=
  value registry options (object registry options g.size) path tag v

/-- The steps of fitting arguments. -/
def binding (registry : Registry) (options : DecodeOptions) (params : List FieldDecl)
    (sent : Arguments) : Step (Named Value) :=
  fill (fun d v => value registry options (object registry options sent.graph.size) d.name d.tag v)
    (fun d => .missingArgument d.name) params sent.values

lemma project_eq (registry : Registry) (options : DecodeOptions) (g : Graph) (v : Value)
    (tag : TypeTag) (path : String) :
    project registry options g v tag path =
      ((projecting registry options g v tag path).run { graph := g }).map fun r =>
        { graph := r.2.graph, value := r.1 } := by
  show Except.bind ((projecting registry options g v tag path).run { graph := g }) _ = _
  cases (projecting registry options g v tag path).run { graph := g } <;> rfl

lemma bind_eq (registry : Registry) (options : DecodeOptions) (params : List FieldDecl)
    (sent : Arguments) :
    bind registry options params sent =
      ((binding registry options params sent).run { graph := sent.graph }).map fun r =>
        { graph := r.2.graph, values := r.1 } := by
  show Except.bind ((binding registry options params sent).run { graph := sent.graph }) _ = _
  cases (binding registry options params sent).run { graph := sent.graph } <;> rfl

/-- An extended graph and the original one are alike before anything has been met. -/
lemma alike_start (hg : g.WellFormed) (hext : g.Extends registry g') :
    Alike registry g.size [] { graph := g } { graph := g' } where
  visited := rfl
  nodup := List.nodup_nil
  below := by simp
  size := by
    refine ⟨Nat.le_refl _, Nat.le_of_not_lt fun hlt => ?_⟩
    obtain ⟨o, ho⟩ := Graph.exists_get?_of_lt hlt
    obtain ⟨o', ho', -⟩ := hext _ o ho
    exact Nat.lt_irrefl _ (Graph.lt_size_of_get? ho')
  fresh := fun id hid _ => by
    obtain ⟨o, ho⟩ := Graph.exists_get?_of_lt hid
    obtain ⟨o', ho', hoo'⟩ := hext id o ho
    exact ⟨o, o', ho, ho', hoo', hg.closed id o ho⟩
  done := by simp

/-- Steps in lockstep fail in the same way, or give the same and leave the same in every object that
they meet. -/
lemma Lockstep.same {α β : Type} {m m' : Step α} (h : Lockstep registry g.size 0 m m')
    (hg : g.WellFormed) (hext : g.Extends registry g') (f : α × Progress → β) :
    (∀ e, (m.run { graph := g }).map f = .error e ↔ (m'.run { graph := g' }).map f = .error e) ∧
      ∀ r, (m.run { graph := g }).map f = .ok r → ∃ a q q', r = f (a, q) ∧
        (m'.run { graph := g' }).map f = .ok (f (a, q')) ∧ reached m' g' = reached m g ∧
        ∀ id ∈ reached m g, q'.graph.get? id = q.graph.get? id := by
  rcases h [] _ _ (alike_start hg hext) (Nat.zero_le _) with
    ⟨e, he, he'⟩ | ⟨a, q, q', hq, hq', halike, -⟩
  · rw [he, he']
    refine ⟨fun e' => Iff.rfl, fun r hr => ?_⟩
    cases hr
  · have hreached : reached m g = q.visited := by rw [reached, hq]
    have hreached' : reached m' g' = q'.visited := by rw [reached, hq']
    rw [hq, hq', hreached, hreached']
    refine ⟨fun e => ⟨fun he => ?_, fun he => ?_⟩, fun r hr => ?_⟩
    · cases he
    · cases he
    · cases hr
      exact ⟨a, q, q', rfl, rfl, halike.visited,
        fun id hid => halike.done id hid List.not_mem_nil⟩

/-- **A newer sender does not disturb an older reader**: over a graph whose objects have further
fields that their declarations lack, and which may hold further objects, a value is fitted with the
same result or fails with the same misfit as over the original graph, and the same objects are met
and become the same; and so it is with arguments, among which there may be further ones that are
not parameters. -/
theorem project_of_extends (registry : Registry) (options : DecodeOptions) (hg : g.WellFormed)
    (hext : g.Extends registry g') :
    (∀ v tag path, v.Within g.size →
      (∀ e, project registry options g v tag path = .error e ↔
          project registry options g' v tag path = .error e) ∧
        ∀ r, project registry options g v tag path = .ok r → ∃ r',
          project registry options g' v tag path = .ok r' ∧ r'.value = r.value ∧
          reached (projecting registry options g' v tag path) g' =
            reached (projecting registry options g v tag path) g ∧
          ∀ id ∈ reached (projecting registry options g v tag path) g,
            r'.graph.get? id = r.graph.get? id) ∧
    ∀ params values values', (∀ e ∈ values, e.2.Within g.size) → values'.names.Nodup →
      Named.Inserted (fun name => ∀ d ∈ params, d.name ≠ name) values values' →
      (∀ e, bind registry options params ⟨g, values⟩ = .error e ↔
          bind registry options params ⟨g', values'⟩ = .error e) ∧
        ∀ a, bind registry options params ⟨g, values⟩ = .ok a → ∃ a',
          bind registry options params ⟨g', values'⟩ = .ok a' ∧ a'.values = a.values ∧
          reached (binding registry options params ⟨g', values'⟩) g' =
            reached (binding registry options params ⟨g, values⟩) g ∧
          ∀ id ∈ reached (binding registry options params ⟨g, values⟩) g,
            a'.graph.get? id = a.graph.get? id := by
  have hsize : g.size ≤ g'.size := (alike_start hg hext).size.2
  have hvalue : ∀ path tag v, v.Within g.size → Lockstep registry g.size 0
      (value registry options (object registry options g.size) path tag v)
      (value registry options (object registry options g'.size) path tag v) := by
    intro path tag v hv
    exact lockstep_value (fun id hid => lockstep_object (by omega) (by omega) (hv id hid)) tag
  constructor
  · intro v tag path hv
    simp only [project_eq]
    obtain ⟨herror, hok⟩ := (hvalue path tag v hv).same hg hext fun r =>
      Returned.mk r.2.graph r.1
    refine ⟨herror, fun r hr => ?_⟩
    obtain ⟨a, q, q', rfl, hr', hreached, hsame⟩ := hok r hr
    exact ⟨_, hr', rfl, hreached, hsame⟩
  · intro params values values' hvalues hdistinct hinserted
    have hshares : Shares g.size params values values' :=
      ⟨(hinserted.sublist.map _).nodup hdistinct, hdistinct,
        fun d hd => hinserted.get?_eq fun hne => hne d hd rfl, hvalues⟩
    have hfill : Lockstep registry g.size 0 (binding registry options params ⟨g, values⟩)
        (binding registry options params ⟨g', values'⟩) :=
      lockstep_fill (fun d v hv => hvalue d.name d.tag v hv) hshares
    simp only [bind_eq]
    obtain ⟨herror, hok⟩ := hfill.same hg hext fun r => Arguments.mk r.2.graph r.1
    refine ⟨herror, fun r hr => ?_⟩
    obtain ⟨a, q, q', rfl, hr', hreached, hsame⟩ := hok r hr
    exact ⟨_, hr', rfl, hreached, hsame⟩

/-- Two objects that refer to each other, each sent with one more field, one of which leads to an
object that the reader does not know; and one more argument. -/
theorem project_of_extends_ring :
    let params : List FieldDecl := [⟨"it", .object "Node", true⟩]
    let registry : Registry :=
      { types := [⟨"Node", [⟨"next", .object "Node", true⟩, ⟨"size", .int, false⟩]⟩] }
    let g : Graph := ⟨#[⟨"Node", [("next", .object 1)]⟩,
      ⟨"Node", [("size", .int 1), ("next", .object 0)]⟩]⟩
    let g' : Graph := ⟨#[⟨"Node", [("tint", .object 2), ("next", .object 1)]⟩,
      ⟨"Node", [("size", .int 1), ("next", .object 0), ("note", .str "x")]⟩,
      ⟨"Tint", [("of", .object 0)]⟩]⟩
    let fitted : Graph := ⟨#[⟨"Node", [("next", .object 1), ("size", .null)]⟩,
      ⟨"Node", [("next", .object 0), ("size", .int 1)]⟩]⟩
    project registry {} g (.object 0) (.object "Node") "it" = .ok ⟨fitted, .object 0⟩ ∧
      (∃ r, project registry {} g' (.object 0) (.object "Node") "it" = .ok r ∧
        r.value = .object 0 ∧ ∀ id ∈ [0, 1], r.graph.get? id = fitted.get? id) ∧
      ∃ a, bind registry {} params ⟨g', [("more", .object 2), ("it", .object 0)]⟩ = .ok a ∧
        a.values = [("it", .object 0)] ∧ ∀ id ∈ [0, 1], a.graph.get? id = fitted.get? id := by
  intro params registry g g' fitted
  have hobject : ∀ id < 2, (Value.object id).Within g.size := fun id hid => Value.within_object hid
  have hint : (Value.int 1).Within g.size := Value.within_scalar rfl fun id => by simp
  have hg : g.WellFormed := by
    constructor <;> intro id o ho <;> rcases id with _ | _ | id <;> cases ho
    · exact List.forall_mem_singleton.mpr (hobject 1 (by decide))
    · exact List.forall_mem_cons.mpr
        ⟨hint, List.forall_mem_singleton.mpr (hobject 0 (by decide))⟩
    · decide
    · decide
  have hlacks : ∀ name, name ≠ "next" → name ≠ "size" → registry.Lacks "Node" name := by
    intro name hnext hsize
    refine ⟨_, rfl, ?_⟩
    simp [hnext.symm, hsize.symm]
  have hext : g.Extends registry g' := by
    intro id o ho
    rcases id with _ | _ | id <;> cases ho
    · exact ⟨_, rfl, rfl, .insert (hlacks _ (by decide) (by decide)) (.keep _ .nil), by decide⟩
    · exact ⟨_, rfl, rfl, .keep _ (.keep _ (.insert (hlacks _ (by decide) (by decide)) .nil)),
        by decide⟩
  obtain ⟨hproject, hbind⟩ := project_of_extends registry {} hg hext
  have hfitted : project registry {} g (.object 0) (.object "Node") "it" =
      .ok ⟨fitted, .object 0⟩ := rfl
  have hbound : bind registry {} params ⟨g, [("it", .object 0)]⟩ =
      .ok ⟨fitted, [("it", .object 0)]⟩ := rfl
  obtain ⟨r, hr, hvalue, -, hsame⟩ :=
    (hproject (.object 0) (.object "Node") "it" (hobject 0 (by decide))).2 _ hfitted
  have hinserted : Named.Inserted (fun name => ∀ d ∈ params, d.name ≠ name)
      [("it", Value.object 0)] [("more", .object 2), ("it", .object 0)] :=
    .insert (by decide) (.keep _ .nil)
  obtain ⟨a, ha, hvalues, -, hsame'⟩ := (hbind params _ _
    (List.forall_mem_singleton.mpr (hobject 0 (by decide))) (by decide) hinserted).2 _ hbound
  refine ⟨hfitted, ⟨r, hr, hvalue, fun id hid => hsame id ?_⟩, a, ha, hvalues,
    fun id hid => hsame' id ?_⟩
  · have hreached : reached (projecting registry {} g (.object 0) (.object "Node") "it") g =
        [1, 0] := rfl
    rw [hreached]
    simpa [or_comm] using hid
  · have hreached : reached (binding registry {} params ⟨g, [("it", .object 0)]⟩) g = [1, 0] := rfl
    rw [hreached]
    simpa [or_comm] using hid

end Projection

end RemoteCall
