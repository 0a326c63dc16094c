/-
# A newer reader takes what an older sender wrote

A newer reader may declare optional fields and parameters that no object and no argument of an
older sender has.  Projection under the newer declarations goes beside projection under the older
ones: it meets the same objects in the same order, a look-up of a name that was not sent takes
nothing away from later look-ups, and in the places of the new declarations it leaves null.
-/
import RemoteCall.Proofs.Projection.Evolution
import RemoteCall.Proofs.Projection.Fitted

namespace RemoteCall

/-! ## Extended declarations -/

/-- Declarations are others with further ones, which `extra` allows, at any positions. -/
inductive FieldDecl.Inserted (extra : FieldDecl → Prop) : List FieldDecl → List FieldDecl → Prop
  | nil : Inserted extra [] []
  | keep {ds ds' : List FieldDecl} (d : FieldDecl) :
      Inserted extra ds ds' → Inserted extra (d :: ds) (d :: ds')
  | insert {ds ds' : List FieldDecl} {d : FieldDecl} :
      extra d → Inserted extra ds ds' → Inserted extra ds (d :: ds')

/-- Values for declarations, and the same values for the declarations with further ones, which
`extra` allows: what stands in the places of these is null. -/
inductive FieldDecl.Padded (extra : FieldDecl → Prop) :
    List FieldDecl → List FieldDecl → Named Value → Named Value → Prop
  | nil : Padded extra [] [] [] []
  | keep {ds ds' : List FieldDecl} {l l' : Named Value} (d : FieldDecl) (v : Value) :
      Padded extra ds ds' l l' → Padded extra (d :: ds) (d :: ds') ((d.name, v) :: l)
        ((d.name, v) :: l')
  | insert {ds ds' : List FieldDecl} {l l' : Named Value} {d : FieldDecl} :
      extra d → Padded extra ds ds' l l' → Padded extra ds (d :: ds') l ((d.name, .null) :: l')

/-- A declaration is optional, and its name was not sent with any object of a graph. -/
structure FieldDecl.NewTo (g : Graph) (d : FieldDecl) : Prop where
  optional : d.mandatory = false
  unsent : ∀ id o, g.get? id = some o → d.name ∉ o.fields.names

/-- A type has further fields in the declaration of a newer reader. -/
structure TypeSchema.Extends (extra : FieldDecl → Prop) (s s' : TypeSchema) : Prop where
  name : s'.name = s.name
  fields : FieldDecl.Inserted extra s.fields s'.fields

/-- The types of a registry have further fields in the registry of a newer reader. -/
structure Registry.Extends (extra : FieldDecl → Prop) (r r' : Registry) : Prop where
  enums : r'.enums = r.enums
  types : List.Forall₂ (TypeSchema.Extends extra) r.types r'.types

/-- An object as it is for a newer reader: if its type is declared it has null in the further fields
of the declaration, and else it is the same. -/
structure Node.Padded (extra : FieldDecl → Prop) (r r' : Registry) (o o' : Node) : Prop where
  typeName : o'.typeName = o.typeName
  undeclared : r.type? o.typeName = none → o'.fields = o.fields
  declared : ∀ s s', r.type? o.typeName = some s → r'.type? o.typeName = some s' →
    FieldDecl.Padded extra s.fields s'.fields o.fields o'.fields

/-- A graph as it is for a newer reader: the objects that have been met have null in their further
fields, and the others are the same. -/
structure Graph.Padded (extra : FieldDecl → Prop) (r r' : Registry) (visited : List Nat)
    (g g' : Graph) : Prop where
  met : ∀ id ∈ visited, ∃ o o', g.get? id = some o ∧ g'.get? id = some o' ∧
    o.Padded extra r r' o'
  unmet : ∀ id, id ∉ visited → g'.get? id = g.get? id

variable {extra : FieldDecl → Prop} {registry registry' : Registry}

/-- The same types are declared. -/
lemma Registry.Extends.type? (h : registry.Extends extra registry') (name : String) :
    (registry.type? name = none ∧ registry'.type? name = none) ∨
      ∃ s s', registry.type? name = some s ∧ registry'.type? name = some s' ∧
        s.Extends extra s' := by
  obtain ⟨-, htypes⟩ := h
  simp only [Registry.type?]
  generalize registry.types = types at htypes
  generalize registry'.types = types' at htypes
  induction htypes with
  | nil => exact Or.inl ⟨rfl, rfl⟩
  | @cons s s' _ _ hs _ ih =>
    have hname : (s'.name == name) = (s.name == name) := by rw [hs.name]
    simp only [List.find?_cons, hname]
    split
    · exact Or.inr ⟨s, s', rfl, rfl, hs⟩
    · exact ih

namespace Projection

variable {options : DecodeOptions} {g : Graph} {declared : Option String}

/-- An object is fitted to declarations of one type. -/
lemma schemaFor?_extends (h : registry.Extends extra registry') (typeName : String)
    (declared : Option String) :
    (schemaFor? registry typeName declared = none ∧ schemaFor? registry' typeName declared = none) ∨
      ∃ s s', schemaFor? registry typeName declared = some s ∧
        schemaFor? registry' typeName declared = some s' ∧ s.Extends extra s' := by
  rcases h.type? typeName with ⟨hnone, hnone'⟩ | ⟨s, s', hs, hs', hext⟩
  · simp only [schemaFor?, hnone, hnone']
    cases declared with
    | none => exact Or.inl ⟨rfl, rfl⟩
    | some name => exact h.type? name
  · exact Or.inr ⟨s, s', by simp [schemaFor?, hs], by simp [schemaFor?, hs'], hext⟩

lemma constant_extends (h : registry.Extends extra registry') (enumName c : String) :
    constant registry' options enumName c = constant registry options enumName c := by
  simp only [constant, Registry.enum?, h.enums]

/-! ## Fields -/

section Fields

variable {S : Progress → Progress → Prop} {fit fit' : FieldDecl → Value → Step Value}
  {missing : FieldDecl → Misfit} {ds ds' : List FieldDecl}

/-- What a declared place leaves is part of what there was. -/
lemma names_left_subset (sent : Named Value) (name : String) :
    ((sent.swapOut? name).getD (.null, sent)).2.names ⊆ sent.names := by
  rcases hs : sent.swapOut? name with _ | ⟨found, left⟩
  · exact List.Subset.refl _
  · have hperm : (Named.names sent).Perm (name :: left.names) :=
      (Named.perm_of_swapOut? hs).map Prod.fst
    exact fun m hm => hperm.mem_iff.mpr (List.mem_cons_of_mem _ hm)

/-- An optional place for which nothing was sent becomes null, and takes nothing away. -/
lemma fill_cons_of_not_mem {d : FieldDecl} {sent : Named Value} (hd : d.mandatory = false)
    (hname : d.name ∉ sent.names) :
    fill fit missing (d :: ds) sent =
      fill fit missing ds sent >>= fun rest => pure ((d.name, .null) :: rest) := by
  have hs : sent.swapOut? d.name = none :=
    Named.swapOut?_eq_none_iff.mpr (Named.get?_eq_none_iff.mpr hname)
  have hplace : place fit missing d .null = pure .null := by
    simp [place, Value.isNull, hd]
  simp only [fill, hs, Option.getD_none, hplace, pure_bind]

/-- Declared places are filled side by side, with null in the further ones. -/
lemma coupled_fill (hfit : ∀ d v, Coupled S Eq (fit d v) (fit' d v))
    (hds : FieldDecl.Inserted extra ds ds') {sent : Named Value}
    (hsent : ∀ d, extra d → d.mandatory = false ∧ d.name ∉ sent.names) :
    Coupled S (FieldDecl.Padded extra ds ds') (fill fit missing ds sent)
      (fill fit' missing ds' sent) := by
  induction hds generalizing sent with
  | nil => exact coupled_pure .nil
  | keep d _ ih =>
    have hleft := names_left_subset sent d.name
    refine (coupled_congruence.place (hfit d _)).bind_eq fun v => ?_
    refine (ih fun d' hd' => ?_).map fun l l' hl => .keep d v hl
    exact ⟨(hsent d' hd').1, fun hmem => (hsent d' hd').2 (hleft hmem)⟩
  | @insert ds ds' d hd _ ih =>
    rw [fill_cons_of_not_mem (hsent d hd).1 (hsent d hd).2]
    exact (ih hsent).map_right fun l l' hl => .insert hd hl

end Fields

/-! ## Two readers side by side -/

/-- Two readers have met the same objects of a graph.  What they have not met is as it was sent, and
what they have met has, unless it is under way, null in the further fields of the newer reader. -/
structure Beside (extra : FieldDecl → Prop) (registry registry' : Registry) (g : Graph)
    (underway : List Nat) (p p' : Progress) : Prop where
  visited : p'.visited = p.visited
  size : p.graph.size = g.size ∧ p'.graph.size = g.size
  marked : ∀ id ∈ underway, id ∈ p.visited
  fresh : ∀ id, id ∉ p.visited → p.graph.get? id = g.get? id ∧ p'.graph.get? id = g.get? id
  done : ∀ id ∈ p.visited, id ∉ underway → ∃ o o', p.graph.get? id = some o ∧
    p'.graph.get? id = some o' ∧ o.Padded extra registry registry' o'

variable {underway : List Nat} {id : Nat} {p p' : Progress}

lemma Beside.start (g : Graph) :
    Beside extra registry registry' g [] { graph := g } { graph := g } where
  visited := rfl
  size := ⟨rfl, rfl⟩
  marked := by simp
  fresh := fun _ _ => ⟨rfl, rfl⟩
  done := by simp

/-- An object that is met is under way for both readers. -/
lemma Beside.mark (h : Beside extra registry registry' g underway p p') (id : Nat) :
    Beside extra registry registry' g (id :: underway)
      { p with visited := id :: p.visited } { p' with visited := id :: p'.visited } where
  visited := by rw [h.visited]
  size := h.size
  marked := fun i hi => by
    rcases List.mem_cons.mp hi with rfl | hi
    · exact List.mem_cons_self
    · exact List.mem_cons_of_mem _ (h.marked i hi)
  fresh := fun i hi => h.fresh i (List.not_mem_of_not_mem_cons hi)
  done := fun i hi hout => by
    have hi := (List.mem_cons.mp hi).resolve_left (List.ne_of_not_mem_cons hout)
    exact h.done i hi (List.not_mem_of_not_mem_cons hout)

/-- An object that both readers have fitted is under way no longer. -/
lemma Beside.put (h : Beside extra registry registry' g (id :: underway) p p') (hid : id < g.size)
    {o o' : Node} (ho : o.Padded extra registry registry' o') :
    Beside extra registry registry' g underway { p with graph := p.graph.modify id fun _ => o }
      { p' with graph := p'.graph.modify id fun _ => o' } where
  visited := h.visited
  size := by
    rw [Graph.size_modify, Graph.size_modify]
    exact h.size
  marked := fun i hi => h.marked i (List.mem_cons_of_mem _ hi)
  fresh := fun i hi => by
    have hne : i ≠ id := fun heq => hi (heq ▸ h.marked id List.mem_cons_self)
    rw [Graph.get?_modify_of_ne _ hne, Graph.get?_modify_of_ne _ hne]
    exact h.fresh i hi
  done := fun i hi hout => by
    by_cases hii : i = id
    · obtain ⟨x, hx⟩ := Graph.exists_get?_of_lt (h.size.1 ▸ hid)
      obtain ⟨x', hx'⟩ := Graph.exists_get?_of_lt (h.size.2 ▸ hid)
      refine ⟨o, o', ?_, ?_, ho⟩ <;> rw [hii, Graph.get?_modify_self]
      · rw [hx, Option.map_some]
      · rw [hx', Option.map_some]
    · rw [Graph.get?_modify_of_ne _ hii, Graph.get?_modify_of_ne _ hii]
      exact h.done i hi (List.not_mem_cons_of_ne_of_not_mem hii hout)

/-- The fields of an object are fitted side by side, if values are. -/
lemma coupled_node {S : Progress → Progress → Prop}
    {fit fit' : String → TypeTag → Value → Step Value}
    (h : registry.Extends (FieldDecl.NewTo g) registry')
    (hfit : ∀ path tag v, Coupled S Eq (fit path tag v) (fit' path tag v)) {o : Node}
    (ho : g.get? id = some o) (declared : Option String) :
    Coupled S (Node.Padded (FieldDecl.NewTo g) registry registry')
      (node fit o (schemaFor? registry o.typeName declared))
      (node fit' o (schemaFor? registry' o.typeName declared)) := by
  rcases schemaFor?_extends h o.typeName declared with ⟨hs, hs'⟩ | ⟨s, s', hs, hs', hext⟩ <;>
    rw [hs, hs']
  · refine (coupled_congruence.keep fun e _ => hfit e.1 .any e.2).map ?_
    rintro fields _ rfl
    refine ⟨rfl, fun _ => rfl, fun s s' ht => ?_⟩
    rw [type?_of_schemaFor?_none hs] at ht
    cases ht
  · have hpath : ∀ d, fieldPath s' d = fieldPath s d := by
      intro d
      rw [fieldPath, hext.name, fieldPath]
    simp only [node, hpath]
    refine (coupled_fill (fun d v => hfit _ d.tag v) hext.fields fun d hd =>
      ⟨hd.optional, hd.unsent id o ho⟩).map fun fields fields' hfields => ⟨hext.name, ?_, ?_⟩
    · intro ht
      cases (type?_of_schemaFor? hs).symm.trans ht
    · intro t t' ht ht'
      cases (type?_of_schemaFor? hs).symm.trans ht
      cases (type?_of_schemaFor? hs').symm.trans (hext.name ▸ ht')
      exact hfields

/-- **An object is fitted side by side** by an older and a newer reader. -/
lemma coupled_object (h : registry.Extends (FieldDecl.NewTo g) registry') (unmet id : Nat)
    (declared : Option String) (underway : List Nat) :
    Coupled (Beside (FieldDecl.NewTo g) registry registry' g underway) Eq
      (object registry options unmet id declared) (object registry' options unmet id declared) := by
  induction unmet generalizing id declared underway with
  | zero =>
    unfold object
    exact coupled_meet (fun _ _ hp => hp.visited) fun p p' hp hid => Or.inl ⟨_, rfl, rfl⟩
  | succ unmet ih =>
    unfold object
    refine coupled_meet (fun _ _ hp => hp.visited) fun p p' hp hid => ?_
    obtain ⟨hget, hget'⟩ := hp.fresh id hid
    rcases ho : g.get? id with _ | o
    · rw [run_rewrite_of_none (p := { p with visited := id :: p.visited }) (hget.trans ho),
        run_rewrite_of_none (p := { p' with visited := id :: p'.visited }) (hget'.trans ho)]
      exact Or.inl ⟨_, rfl, rfl⟩
    · rw [run_rewrite (p := { p with visited := id :: p.visited }) (hget.trans ho),
        run_rewrite (p := { p' with visited := id :: p'.visited }) (hget'.trans ho)]
      have hfit : ∀ path tag v,
          Coupled (Beside (FieldDecl.NewTo g) registry registry' g (id :: underway)) Eq
            (value registry options (object registry options unmet) path tag v)
            (value registry' options (object registry' options unmet) path tag v) :=
        fun path tag v => coupled_value (constant_extends h)
          (fun i _ declared => ih i declared (id :: underway)) tag
      rcases coupled_node h hfit ho declared _ _ (hp.mark id) with
        ⟨e, he, he'⟩ | ⟨a, a', q, q', hq, hq', ha, hbeside⟩
      · exact Or.inl ⟨e, run_bind_eq_error.mpr (Or.inl he), run_bind_eq_error.mpr (Or.inl he')⟩
      · exact Or.inr ⟨(), (), _, _, run_bind_eq_ok.mpr ⟨a, q, hq, rfl⟩,
          run_bind_eq_ok.mpr ⟨a', q', hq', rfl⟩, rfl, hbeside.put (Graph.lt_size_of_get? ho) ha⟩

/-- Steps that go side by side over a graph fail in the same way, or give results of which the
second is padded, and the objects that they meet are padded. -/
lemma Coupled.padded {α β γ γ' : Type} {R : α → β → Prop} {m : Step α} {m' : Step β}
    (h : Coupled (Beside extra registry registry' g []) R m m') (f : α × Progress → γ)
    (f' : β × Progress → γ') :
    (∀ e, (m.run { graph := g }).map f = .error e ↔ (m'.run { graph := g }).map f' = .error e) ∧
      ∀ r, (m.run { graph := g }).map f = .ok r → ∃ a b q q', r = f (a, q) ∧
        (m'.run { graph := g }).map f' = .ok (f' (b, q')) ∧ R a b ∧ reached m' g = reached m g ∧
        Graph.Padded extra registry registry' (reached m g) q.graph q'.graph := by
  have hreached : ∀ {a b q q'}, m.run { graph := g } = .ok (a, q) →
      m'.run { graph := g } = .ok (b, q') → Beside extra registry registry' g [] q q' →
        reached m' g = reached m g ∧
        Graph.Padded extra registry registry' (reached m g) q.graph q'.graph := by
    intro a b q q' hq hq' hS
    rw [reached, reached, hq, hq']
    refine ⟨hS.visited, fun id hid => hS.done id hid List.not_mem_nil, fun id hid => ?_⟩
    rw [(hS.fresh id hid).1, (hS.fresh id hid).2]
  obtain ⟨herror, hok⟩ := (h _ _ (.start g)).map f f'
  refine ⟨herror, fun r hr => ?_⟩
  obtain ⟨a, b, q, q', hq, hq', hfr, hR, hS⟩ := hok r hr
  exact ⟨a, b, q, q', hfr, by rw [hq']; rfl, hR, hreached hq hq' hS⟩

/-- **A newer reader takes what an older sender wrote**: under declarations with further optional
fields, none of which has the name of a field in the graph, a value is fitted with the same result
or fails with the same misfit; the same objects are met, and these differ only in that those of an
extended type have null in the places of the further fields.  And so it is with arguments, where
there may be further optional parameters which have not been sent. -/
theorem project_of_registry_extends (options : DecodeOptions)
    (h : registry.Extends (FieldDecl.NewTo g) registry') :
    (∀ v tag path,
      (∀ e, project registry options g v tag path = .error e ↔
          project registry' options g v tag path = .error e) ∧
        ∀ r, project registry options g v tag path = .ok r → ∃ r',
          project registry' options g v tag path = .ok r' ∧ r'.value = r.value ∧
          reached (projecting registry' options g v tag path) g =
            reached (projecting registry options g v tag path) g ∧
          Graph.Padded (FieldDecl.NewTo g) registry registry'
            (reached (projecting registry options g v tag path) g) r.graph r'.graph) ∧
    ∀ params params' values,
      FieldDecl.Inserted (fun d => d.mandatory = false ∧ d.name ∉ values.names) params params' →
      (∀ e, bind registry options params ⟨g, values⟩ = .error e ↔
          bind registry' options params' ⟨g, values⟩ = .error e) ∧
        ∀ a, bind registry options params ⟨g, values⟩ = .ok a → ∃ a',
          bind registry' options params' ⟨g, values⟩ = .ok a' ∧
          FieldDecl.Padded (fun d => d.mandatory = false ∧ d.name ∉ values.names) params params'
            a.values a'.values ∧
          reached (binding registry' options params' ⟨g, values⟩) g =
            reached (binding registry options params ⟨g, values⟩) g ∧
          Graph.Padded (FieldDecl.NewTo g) registry registry'
            (reached (binding registry options params ⟨g, values⟩) g) a.graph a'.graph := by
  have hvalue : ∀ path tag v, Coupled (Beside (FieldDecl.NewTo g) registry registry' g []) Eq
      (value registry options (object registry options g.size) path tag v)
      (value registry' options (object registry' options g.size) path tag v) := by
    intro path tag v
    exact coupled_value (constant_extends h)
      (fun id _ declared => coupled_object h g.size id declared []) tag
  constructor
  · intro v tag path
    simp only [project_eq]
    have hrun : Coupled (Beside (FieldDecl.NewTo g) registry registry' g []) Eq
        (projecting registry options g v tag path) (projecting registry' options g v tag path) :=
      hvalue path tag v
    obtain ⟨herror, hok⟩ := hrun.padded (fun r => Returned.mk r.2.graph r.1)
      fun r => Returned.mk r.2.graph r.1
    refine ⟨herror, fun r hr => ?_⟩
    obtain ⟨a, _, q, q', rfl, hr', rfl, hgraph⟩ := hok r hr
    exact ⟨_, hr', rfl, hgraph⟩
  · intro params params' values hparams
    have hfill : Coupled (Beside (FieldDecl.NewTo g) registry registry' g [])
        (FieldDecl.Padded (fun d => d.mandatory = false ∧ d.name ∉ values.names) params params')
        (binding registry options params ⟨g, values⟩)
        (binding registry' options params' ⟨g, values⟩) :=
      coupled_fill (fun d v => hvalue d.name d.tag v) hparams fun d hd => hd
    simp only [bind_eq]
    obtain ⟨herror, hok⟩ := hfill.padded (fun r => Arguments.mk r.2.graph r.1)
      fun r => Arguments.mk r.2.graph r.1
    refine ⟨herror, fun r hr => ?_⟩
    obtain ⟨a, a', q, q', rfl, hr', hvalues, hgraph⟩ := hok r hr
    exact ⟨_, hr', hvalues, hgraph⟩

/-- Two objects that refer to each other, one of them of a type that is declared only under the name
in the reference to it; the newer reader declares a field in front and one between two others, and
a parameter in front. -/
theorem project_of_registry_extends_ring :
    let next : FieldDecl := ⟨"next", .object "Node", true⟩
    let size : FieldDecl := ⟨"size", .int, false⟩
    let tint : FieldDecl := ⟨"tint", .object "Tint", false⟩
    let note : FieldDecl := ⟨"note", .str, false⟩
    let registry : Registry := { types := [⟨"Node", [next, size]⟩] }
    let registry' : Registry := { types := [⟨"Node", [tint, next, note, size]⟩] }
    let g : Graph := ⟨#[⟨"Node", [("size", .int 1), ("next", .object 1)]⟩,
      ⟨"Item", [("next", .object 0)]⟩]⟩
    let fitted : Graph := ⟨#[⟨"Node", [("next", .object 1), ("size", .int 1)]⟩,
      ⟨"Node", [("next", .object 0), ("size", .null)]⟩]⟩
    registry.Extends (FieldDecl.NewTo g) registry' ∧
      (project registry {} g (.object 0) (.object "Node") "it" = .ok ⟨fitted, .object 0⟩ ∧
        ∃ r', project registry' {} g (.object 0) (.object "Node") "it" = .ok r' ∧
          r'.value = .object 0 ∧
          Graph.Padded (FieldDecl.NewTo g) registry registry' [1, 0] fitted r'.graph) ∧
      ∃ a', bind registry' {} [note, next] ⟨g, [("next", .object 0)]⟩ = .ok a' ∧
        FieldDecl.Padded (fun d => d.mandatory = false ∧ d.name ∉ ["next"]) [next] [note, next]
          [("next", .object 0)] a'.values := by
  intro next size tint note registry registry' g fitted
  have hnew : ∀ d : FieldDecl, d.mandatory = false → d.name ∉ ["size", "next"] →
      d.NewTo g := by
    intro d hd hname
    refine ⟨hd, fun id o ho hmem => hname ?_⟩
    rcases id with _ | _ | id <;> cases ho
    · exact hmem
    · exact List.mem_cons_of_mem _ hmem
  have hext : registry.Extends (FieldDecl.NewTo g) registry' :=
    ⟨rfl, .cons ⟨rfl, .insert (hnew tint rfl (by decide))
      (.keep next (.insert (hnew note rfl (by decide)) (.keep size .nil)))⟩ .nil⟩
  obtain ⟨hproject, hbind⟩ := project_of_registry_extends {} hext
  have hfitted : project registry {} g (.object 0) (.object "Node") "it" =
      .ok ⟨fitted, .object 0⟩ := rfl
  have hreached : reached (projecting registry {} g (.object 0) (.object "Node") "it") g =
      [1, 0] := rfl
  obtain ⟨r', hr', hvalue, -, hgraph⟩ :=
    (hproject (.object 0) (.object "Node") "it").2 _ hfitted
  have hbound : bind registry {} [next] ⟨g, [("next", .object 0)]⟩ =
      .ok ⟨fitted, [("next", .object 0)]⟩ := rfl
  obtain ⟨a', ha', hvalues, -⟩ := (hbind [next] [note, next] [("next", .object 0)]
    (.insert (by decide) (.keep next .nil))).2 _ hbound
  exact ⟨hext, ⟨hfitted, r', hr', hvalue, hreached ▸ hgraph⟩, a', ha', hvalues⟩

end Projection

end RemoteCall
