/-
# Binding by name

A declared place takes something that was sent under its name, and null if nothing was.  Behind
each place that takes something the last entry of what is left moves forward, so where a name
repeats a later entry may be found for it; where a name does not repeat, its place takes what a
look-up finds.

Which objects are met, and in which order, is decided by the places and entries that are objects or
collections.  Two projections that differ in scalars only go through the same references, and
agree on every place that both declare and for which both were sent the same.
-/
import RemoteCall.Proofs.Projection.Traversal

namespace RemoteCall

/-! ## Scalars -/

/-- Whether a value is neither an object nor a collection. -/
def Value.isScalar : Value → Bool
  | .list _ | .set _ | .map _ | .object _ => false
  | _ => true

/-- Whether a type has neither objects nor collections. -/
def TypeTag.isScalar : TypeTag → Bool
  | .any | .list _ | .set _ | .map _ _ | .object _ => false
  | _ => true

/-- The entries that are objects or collections. -/
def Named.composites (l : Named Value) : Named Value := l.filter fun e => !e.2.isScalar

/-- The declared places whose types have objects or collections. -/
def FieldDecl.composites (ds : List FieldDecl) : List FieldDecl :=
  ds.filter fun d => !d.tag.isScalar

/-- Two objects of one type differ in scalars only. -/
structure Node.SameComposites (o o' : Node) : Prop where
  typeName : o'.typeName = o.typeName
  fields : Named.composites o'.fields = Named.composites o.fields

/-- Two lists of arguments, and the objects behind them, differ in scalars only. -/
structure Arguments.SameComposites (a a' : Arguments) : Prop where
  values : Named.composites a'.values = Named.composites a.values
  graph : ∀ id, Option.Rel Node.SameComposites (a.graph.get? id) (a'.graph.get? id)

/-- Two declarations of a type differ in fields of scalar types only. -/
structure TypeSchema.SameComposites (s s' : TypeSchema) : Prop where
  name : s'.name = s.name
  fields : FieldDecl.composites s'.fields = FieldDecl.composites s.fields

/-- Two registries declare the same enumerations, and types under the same names that differ in
fields of scalar types only. -/
structure Registry.SameComposites (r r' : Registry) : Prop where
  enums : r'.enums = r.enums
  types : ∀ name, Option.Rel TypeSchema.SameComposites (r.type? name) (r'.type? name)

/-- No argument and no field of an object was sent under a name twice. -/
structure Arguments.DistinctNames (a : Arguments) : Prop where
  values : a.values.names.Nodup
  graph : a.graph.DistinctFields

/-- The type of an object declares a field. -/
def Registry.DeclaresField (r : Registry) (g : Graph) (id : Nat) (d : FieldDecl) : Prop :=
  ∃ o s, g.get? id = some o ∧ r.type? o.typeName = some s ∧ d ∈ s.fields

/-- What an object has under a name. -/
def Graph.field? (g : Graph) (id : Nat) (name : String) : Option Value :=
  (g.get? id).bind fun o => o.fields.get? name

namespace Projection

variable {registry registry' : Registry} {options : DecodeOptions}

lemma references_of_isScalar_tag {tag : TypeTag} (h : tag.isScalar = true) (v : Value) :
    references tag v = [] := by
  cases tag with
  | any | list _ | set _ | map _ _ | object _ => cases h
  | _ => cases v <;> rfl

lemma references_of_isScalar {v : Value} (h : v.isScalar = true) (tag : TypeTag) :
    references tag v = [] := by
  cases v with
  | list _ | set _ | map _ | object _ => cases h
  | _ => cases tag <;> rfl

/-! ## What is taken for a place -/

/-- What is bound under the name of a declared place is the image of something that was sent under
this name, or of null if nothing was; and if no more than one thing was, it is the image of what a
look-up finds. -/
def Binds (registry : Registry) (options : DecodeOptions) (sent bound : Named Value)
    (d : FieldDecl) : Prop :=
  ∃ v, bound.get? d.name = some (image registry options d.tag v) ∧
    ((d.name, v) ∈ sent ∨ d.name ∉ sent.names ∧ v = .null) ∧
    (sent.names.count d.name ≤ 1 → v = (sent.get? d.name).getD .null)

/-- Declared places are bound to what was sent under their names. -/
lemma get?_filled {ds : List FieldDecl} (hds : (ds.map FieldDecl.name).Nodup) (sent : Named Value)
    {d : FieldDecl} (hd : d ∈ ds) :
    ∃ v, (filled registry options ds (taken ds sent)).get? d.name =
        some (image registry options d.tag v) ∧
      ((d.name, v) ∈ sent ∨ d.name ∉ sent.names ∧ v = .null) := by
  induction ds generalizing sent with
  | nil => cases hd
  | cons d₀ ds ih =>
    obtain ⟨hd₀, hds⟩ := List.nodup_cons.mp hds
    rcases List.mem_cons.mp hd with rfl | hd
    · rcases hs : sent.swapOut? d.name with _ | ⟨found, left⟩
      · have hname : d.name ∉ sent.names :=
          Named.get?_eq_none_iff.mp (Named.swapOut?_eq_none_iff.mp hs)
        exact ⟨.null, by simp [taken, filled, hs, Named.get?], Or.inr ⟨hname, rfl⟩⟩
      · have hmem : (d.name, found) ∈ sent :=
          (Named.perm_of_swapOut? hs).mem_iff.mpr List.mem_cons_self
        exact ⟨found, by simp [taken, filled, hs, Named.get?], Or.inl hmem⟩
    · have hne : d₀.name ≠ d.name := fun h => hd₀ (h ▸ List.mem_map_of_mem hd)
      rcases hs : sent.swapOut? d₀.name with _ | ⟨found, left⟩
      · obtain ⟨v, hget, hv⟩ := ih hds sent hd
        exact ⟨v, by simpa [taken, filled, hs, Named.get?, hne] using hget, hv⟩
      · obtain ⟨v, hget, hv⟩ := ih hds left hd
        refine ⟨v, by simpa [taken, filled, hs, Named.get?, hne] using hget, ?_⟩
        -- what is left under another name was sent
        have hperm := Named.perm_of_swapOut? hs
        have hnames : (Named.names sent).Perm (d₀.name :: left.names) := hperm.map Prod.fst
        refine hv.imp (fun h => hperm.mem_iff.mpr (List.mem_cons_of_mem _ h))
          (And.imp_left fun h hsent => ?_)
        rcases List.mem_cons.mp (hnames.mem_iff.mp hsent) with heq | hleft
        · exact hne heq.symm
        · exact h hleft

lemma binds_filled {ds : List FieldDecl} (hds : (ds.map FieldDecl.name).Nodup)
    (sent : Named Value) {d : FieldDecl} (hd : d ∈ ds) :
    Binds registry options sent (filled registry options ds (taken ds sent)) d := by
  obtain ⟨v, hget, hv⟩ := get?_filled hds sent hd
  refine ⟨v, hget, hv, fun hcount => ?_⟩
  rcases hv with hv | ⟨hname, rfl⟩
  · rw [Named.get?_of_count hcount hv, Option.getD_some]
  · rw [Named.get?_eq_none_iff.mpr hname, Option.getD_none]

/-! ## References and scalars -/

section References

variable {ds ds' : List FieldDecl} {l l' : Named Value}

/-- A look-up that finds a scalar or nothing finds no reference. -/
lemma references_get?_composites (hl : l.names.Nodup) (tag : TypeTag) (name : String) :
    references tag ((l.composites.get? name).getD .null) =
      references tag ((l.get? name).getD .null) := by
  induction l with
  | nil => rfl
  | cons e rest ih =>
    obtain ⟨n, v⟩ := e
    obtain ⟨hn, hrest⟩ := List.nodup_cons.mp hl
    rcases hv : v.isScalar with _ | _
    · by_cases hname : n = name
      · simp [Named.composites, Named.get?, hv, hname]
      · simpa [Named.composites, Named.get?, hv, hname] using ih hrest
    · by_cases hname : n = name
      · subst hname
        have hnone : (Named.composites rest).get? n = none := by
          refine Named.get?_eq_none_iff.mpr fun h => hn ?_
          exact (List.filter_sublist.map Prod.fst).subset h
        have hfilter : Named.composites ((n, v) :: rest) = Named.composites rest := by
          simp [Named.composites, hv]
        rw [hfilter, hnone]
        simp [Named.get?, references_of_isScalar hv]
      · simpa [Named.composites, Named.get?, hv, hname] using ih hrest

lemma flatMap_filter {α β : Type} {p : α → Bool} {f : α → List β} {xs : List α}
    (h : ∀ x ∈ xs, p x = false → f x = []) : (xs.filter p).flatMap f = xs.flatMap f := by
  induction xs with
  | nil => rfl
  | cons x xs ih =>
    obtain ⟨hx, hxs⟩ := List.forall_mem_cons.mp h
    rcases hp : p x with _ | _
    · rw [List.filter_cons_of_neg (by simp [hp]), List.flatMap_cons, hx hp, List.nil_append, ih hxs]
    · rw [List.filter_cons_of_pos hp, List.flatMap_cons, List.flatMap_cons, ih hxs]

/-- The references in what declared places take are in the places that are objects or collections,
and in the entries that are. -/
lemma references_taken (hds : (ds.map FieldDecl.name).Nodup) (hl : l.names.Nodup) :
    ((List.zipWith (fun (d : FieldDecl) v => (d.tag, v)) ds (taken ds l)).flatMap fun w =>
        references w.1 w.2) =
      (FieldDecl.composites ds).flatMap fun d =>
        references d.tag ((l.composites.get? d.name).getD .null) := by
  rw [taken_eq_map hds hl, List.zipWith_map_right, List.zipWith_self, List.flatMap_map]
  simp only [references_get?_composites hl]
  refine (flatMap_filter fun d _ hd => references_of_isScalar_tag ?_ _).symm
  simpa using hd

lemma references_kept :
    (l.flatMap fun e => references .any e.2) =
      l.composites.flatMap fun e => references .any e.2 := by
  refine (flatMap_filter fun e _ he => references_of_isScalar ?_ _).symm
  simpa using he

end References

/-! ## Projections that go abreast -/

/-- The image of a value depends on the enumerations alone. -/
lemma image_congr (h : registry'.enums = registry.enums) (tag : TypeTag) (v : Value) :
    image registry' options tag v = image registry options tag v := by
  induction v using Value.parts_induction generalizing tag with
  | h v ih =>
  unfold image
  split
  case h_2 => simp only [Registry.standIn, Registry.enum?, h]
  case h_3 element vs =>
    rw [imageItems_eq_map, imageItems_eq_map]
    exact congrArg Value.list (List.map_congr_left fun v hv => ih v hv element)
  case h_4 element vs =>
    rw [imageItems_eq_map, imageItems_eq_map]
    exact congrArg Value.set (List.map_congr_left fun v hv => ih v hv element)
  case h_5 keyTag valueTag es =>
    rw [imageEntries_eq_map, imageEntries_eq_map]
    refine congrArg Value.map (List.map_congr_left fun e he => Prod.ext ?_ ?_)
    · exact ih e.1 (Value.key_mem_parts he) keyTag
    · exact Option.map_congr fun v hv => ih v (Value.value_mem_parts he hv) valueTag
  all_goals rfl

lemma rel_cases {α : Type} {r : α → α → Prop} {x y : Option α} (h : Option.Rel r x y) :
    (x = none ∧ y = none) ∨ ∃ a b, x = some a ∧ y = some b ∧ r a b := by
  cases h with
  | some hab => exact Or.inr ⟨_, _, rfl, rfl, hab⟩
  | none => exact Or.inl ⟨rfl, rfl⟩

lemma schemaFor?_sameComposites (h : registry.SameComposites registry') (typeName : String)
    (declared : Option String) :
    Option.Rel TypeSchema.SameComposites (schemaFor? registry typeName declared)
      (schemaFor? registry' typeName declared) := by
  rcases rel_cases (h.types typeName) with ⟨hs, hs'⟩ | ⟨s, s', hs, hs', hss⟩
  · simp only [schemaFor?, hs, hs']
    cases declared with
    | none => exact .none
    | some name => exact h.types name
  · simp only [schemaFor?, hs, hs']
    exact .some hss

/-- Objects that differ in scalars only become objects of one type, with the same references. -/
lemma nodeImage_sameComposites (options : DecodeOptions)
    (hrr : registry.SameComposites registry') (hr : registry.DistinctFields)
    (hr' : registry'.DistinctFields) {o o' : Node} (hoo : o.SameComposites o')
    (ho : o.fields.names.Nodup) (ho' : o'.fields.names.Nodup) (declared : Option String) :
    (nodeImage registry' options o' (schemaFor? registry' o'.typeName declared)).typeName =
        (nodeImage registry options o (schemaFor? registry o.typeName declared)).typeName ∧
      fieldReferences registry'
          (nodeImage registry' options o' (schemaFor? registry' o'.typeName declared)) =
        fieldReferences registry
          (nodeImage registry options o (schemaFor? registry o.typeName declared)) := by
  rcases rel_cases (schemaFor?_sameComposites hrr o.typeName declared) with
    ⟨hs, hs'⟩ | ⟨s, s', hs, hs', hss⟩ <;> rw [← hoo.typeName] at hs'
  · rw [hs, hs', nodeImage, nodeImage, fieldReferences_of_type?_none (type?_of_schemaFor?_none hs),
      fieldReferences_of_type?_none (type?_of_schemaFor?_none hs'), references_kept, hoo.fields,
      ← references_kept]
    exact ⟨hoo.typeName, rfl⟩
  · rw [hs, hs', fieldReferences_nodeImage hs, fieldReferences_nodeImage hs',
      references_taken (distinct_of_schemaFor? hr hs) ho,
      references_taken (distinct_of_schemaFor? hr' hs') ho', hss.fields, hoo.fields]
    exact ⟨hss.name, rfl⟩

/-- Two projections, over the graphs `g` and `g'`, have met the same objects and have left the
others as they were; and all objects have the same types. -/
structure Abreast (g g' : Graph) (p p' : Progress) : Prop where
  visited : p'.visited = p.visited
  typeNames : ∀ id, (p'.graph.get? id).map Node.typeName = (p.graph.get? id).map Node.typeName
  unmet : ∀ id ∉ p.visited, p.graph.get? id = g.get? id ∧ p'.graph.get? id = g'.get? id

section Abreast

variable {g g' : Graph} {p p' q q' : Progress}

lemma Abreast.mark (h : Abreast g g' p p') (id : Nat) :
    Abreast g g' { p with visited := id :: p.visited } { p' with visited := id :: p'.visited } where
  visited := congrArg (id :: ·) h.visited
  typeNames := h.typeNames
  unmet i hi := h.unmet i (List.not_mem_of_not_mem_cons hi)

lemma Abreast.put (h : Abreast g g' p p') {id : Nat} (hid : id ∈ p.visited) {o o' : Node}
    (hoo : o'.typeName = o.typeName) :
    Abreast g g' { p with graph := p.graph.modify id fun _ => o }
      { p' with graph := p'.graph.modify id fun _ => o' } where
  visited := h.visited
  typeNames i := by
    by_cases hi : i = id
    · subst hi
      have hsame := congrArg (Option.map fun _ => o.typeName) (h.typeNames i)
      simpa [Graph.get?_modify_self, Function.comp_def, hoo] using hsame
    · simpa [Graph.get?_modify_of_ne _ hi] using h.typeNames i
  unmet i hi := by
    have hne : i ≠ id := fun heq => hi (heq ▸ hid)
    simpa [Graph.get?_modify_of_ne _ hne] using h.unmet i hi

/-- **Projections that differ in scalars only go abreast.** -/
lemma Traversal.abreast (hrr : registry.SameComposites registry') (hr : registry.DistinctFields)
    (hr' : registry'.DistinctFields)
    (hgg : ∀ id, Option.Rel Node.SameComposites (g.get? id) (g'.get? id)) (hg : g.DistinctFields)
    (hg' : g'.DistinctFields) {n n' : Nat} {refs : List (Nat × Option String)}
    (h : Traversal registry options n p refs q) (h' : Traversal registry' options n' p' refs q')
    (hp : Abreast g g' p p') : Abreast g g' q q' := by
  induction h generalizing n' p' q' with
  | done =>
    cases h'
    exact hp
  | again hid _ ih =>
    cases h' with
    | again _ hrest' => exact ih hrest' hp
    | first hid' => exact absurd (hp.visited ▸ hid) hid'
  | @first n id declared refs p t q o₁ o hid ho₁ ho hfields hrest ihfields ih =>
    cases h' with
    | again hid' => exact absurd (hp.visited ▸ hid') hid
    | @first n' _ _ _ _ t' _ o₁' o' hid' ho₁' ho' hfields' hrest' =>
      obtain ⟨hunmet, hunmet'⟩ := hp.unmet id hid
      have hoo : o₁.SameComposites o₁' := by
        have hrel := hgg id
        rwa [← hunmet, ← hunmet', ho₁, ho₁', Option.rel_some_some] at hrel
      obtain ⟨htypeName, hreferences⟩ := nodeImage_sameComposites options hrr hr hr' hoo
        (hg id o₁ (hunmet ▸ ho₁)) (hg' id o₁' (hunmet' ▸ ho₁')) declared
      rw [← ho, ← ho'] at htypeName hreferences
      rw [hreferences] at hfields'
      -- the fields first, then the object is put in its place, then the other references
      have ht : Abreast g g' t t' := ihfields hfields' (hp.mark id)
      exact ih hrest' (ht.put (hfields.met List.mem_cons_self) htypeName)

end Abreast

/-! ## Arguments -/

variable {params params' : List FieldDecl} {sent sent' a a' : Arguments}

/-- Fitting arguments goes through the references in what the parameters take. -/
lemma traversal_of_bind (h : bind registry options params sent = .ok a) :
    Traversal registry options sent.graph.size { graph := sent.graph }
      ((List.zipWith (fun (d : FieldDecl) v => (d.tag, v)) params
        (taken params sent.values)).flatMap fun w => references w.1 w.2)
      ⟨a.graph, reached (binding registry options params sent) sent.graph⟩ := by
  obtain ⟨values, q, hrun, rfl⟩ := run_of_bind h
  rw [reached, hrun]
  exact goesThrough_fill (fun d v => goesThrough_value (goesThrough_object sent.graph.size) d.name
    d.tag v) params sent.values _ _ _ hrun

/-- An object that has been met is fitted to the declaration of the type that it has now. -/
lemma fitted_of_bind (h : bind registry options params sent = .ok a) {id : Nat}
    (hid : id ∈ reached (binding registry options params sent) sent.graph) :
    ∃ o o', sent.graph.get? id = some o ∧ a.graph.get? id = some o' ∧
      o' = nodeImage registry options o (registry.type? o'.typeName) := by
  obtain ⟨q, hreached, hgraph, hrewrites, -, -⟩ := exists_run_of_bind h
  obtain ⟨o, o', declared, ho, ho', -, hbecame⟩ :=
    hrewrites.leads_of_met (fun _ _ hi => hi) (hreached ▸ hid)
  refine ⟨o, o', ho, hgraph ▸ ho', ?_⟩
  have himage := hbecame.image
  rcases hs : schemaFor? registry o.typeName declared with _ | s <;> rw [hs] at himage <;>
    subst himage
  · simp only [nodeImage, type?_of_schemaFor?_none hs]
  · rw [show (nodeImage registry options o (some s)).typeName = s.name from rfl,
      type?_of_schemaFor? hs]

lemma Binds.get?_eq {sent bound : Named Value} {d : FieldDecl}
    (h : Binds registry options sent bound d) (hsent : sent.names.Nodup) :
    bound.get? d.name =
      some (image registry options d.tag ((sent.get? d.name).getD .null)) := by
  obtain ⟨v, hget, -, hfirst⟩ := h
  rw [hget, hfirst (List.nodup_iff_count_le_one.mp hsent d.name)]

lemma binds_of_bind (hparams : (params.map FieldDecl.name).Nodup)
    (h : bind registry options params sent = .ok a) {d : FieldDecl} (hd : d ∈ params) :
    Binds registry options sent.values a.values d := by
  obtain ⟨q, -, -, -, hvalues, -⟩ := exists_run_of_bind h
  rw [hvalues]
  exact binds_filled hparams sent.values hd

/-- The declared fields of an object that has been met are bound to what was sent under their
names. -/
lemma binds_fields (hr : registry.DistinctFields) {o o' : Node}
    (h : o' = nodeImage registry options o (registry.type? o'.typeName)) {s : TypeSchema}
    (hs : registry.type? o'.typeName = some s) {d : FieldDecl} (hd : d ∈ s.fields) :
    Binds registry options o.fields o'.fields d := by
  rw [hs] at h
  rw [h]
  exact binds_filled (hr s (List.mem_of_find?_eq_some hs)) o.fields hd

/-- Arguments were fitted, and no name was declared or sent twice. -/
structure DistinctlyBound (registry : Registry) (options : DecodeOptions) (params : List FieldDecl)
    (sent a : Arguments) : Prop where
  declaredFields : registry.DistinctFields
  declaredParams : (params.map FieldDecl.name).Nodup
  sentNames : sent.DistinctNames
  bound : bind registry options params sent = .ok a

/-- Two bindings that differ in scalars only go abreast. -/
lemma abreast_of_bind (h : DistinctlyBound registry options params sent a)
    (h' : DistinctlyBound registry' options params' sent' a')
    (hrr : registry.SameComposites registry')
    (hpp : FieldDecl.composites params' = FieldDecl.composites params)
    (hss : sent.SameComposites sent') :
    Abreast sent.graph sent'.graph
      ⟨a.graph, reached (binding registry options params sent) sent.graph⟩
      ⟨a'.graph, reached (binding registry' options params' sent') sent'.graph⟩ := by
  have hway := traversal_of_bind h.bound
  have hway' := traversal_of_bind h'.bound
  rw [references_taken h.declaredParams h.sentNames.values] at hway
  rw [references_taken h'.declaredParams h'.sentNames.values, hpp, hss.values] at hway'
  refine hway.abreast hrr h.declaredFields h'.declaredFields hss.graph h.sentNames.graph
    h'.sentNames.graph hway' ⟨rfl, fun id => ?_, fun id _ => ⟨rfl, rfl⟩⟩
  rcases rel_cases (hss.graph id) with ⟨ho, ho'⟩ | ⟨o, o', ho, ho', hoo⟩
  · rw [ho, ho']
  · rw [ho, ho', Option.map_some, Option.map_some, hoo.typeName]

end Projection

open Projection

/-- Of two lists of arguments that were fitted, and the objects behind them, the second agrees with
the first on everything that is declared for both and for which both were sent the same. -/
structure Arguments.Agree (registry registry' : Registry) (params params' : List FieldDecl)
    (sent sent' a a' : Arguments) : Prop where
  values : ∀ d ∈ params, d ∈ params' → sent'.values.get? d.name = sent.values.get? d.name →
    a'.values.get? d.name = a.values.get? d.name
  typeNames : ∀ id, (a'.graph.get? id).map Node.typeName = (a.graph.get? id).map Node.typeName
  fields : ∀ id d, registry.DeclaresField a.graph id d → registry'.DeclaresField a'.graph id d →
    sent'.graph.field? id d.name = sent.graph.field? id d.name →
      a'.graph.field? id d.name = a.graph.field? id d.name
  objects : registry' = registry → ∀ id, sent'.graph.get? id = sent.graph.get? id →
    a'.graph.get? id = a.graph.get? id

/-- Two bindings that go abreast agree on what they have in common. -/
lemma agree_of_abreast {registry registry' : Registry} {options : DecodeOptions}
    {params params' : List FieldDecl} {sent sent' a a' : Arguments}
    (h : DistinctlyBound registry options params sent a)
    (h' : DistinctlyBound registry' options params' sent' a')
    (henums : registry'.enums = registry.enums)
    (habreast : Abreast sent.graph sent'.graph
      ⟨a.graph, reached (binding registry options params sent) sent.graph⟩
      ⟨a'.graph, reached (binding registry' options params' sent') sent'.graph⟩) :
    Arguments.Agree registry registry' params params' sent sent' a a' := by
  have hreached : reached (binding registry' options params' sent') sent'.graph =
      reached (binding registry options params sent) sent.graph := habreast.visited
  refine ⟨fun d hd hd' hsame => ?_, habreast.typeNames, fun id d hd hd' hsame => ?_, ?_⟩
  · rw [(binds_of_bind h.declaredParams h.bound hd).get?_eq h.sentNames.values,
      (binds_of_bind h'.declaredParams h'.bound hd').get?_eq h'.sentNames.values,
      image_congr henums, hsame]
  · by_cases hid : id ∈ reached (binding registry options params sent) sent.graph
    · obtain ⟨o₁, o, ho₁, ho, himage⟩ := fitted_of_bind h.bound hid
      obtain ⟨o₁', o', ho₁', ho', himage'⟩ := fitted_of_bind h'.bound (hreached ▸ hid)
      obtain ⟨x, s, hx, hs, hd⟩ := hd
      obtain ⟨x', s', hx', hs', hd'⟩ := hd'
      cases ho.symm.trans hx
      cases ho'.symm.trans hx'
      simp only [Graph.field?, ho₁, ho₁', ho, ho', Option.bind_some] at hsame ⊢
      rw [(binds_fields h.declaredFields himage hs hd).get?_eq (h.sentNames.graph id o₁ ho₁),
        (binds_fields h'.declaredFields himage' hs' hd').get?_eq (h'.sentNames.graph id o₁' ho₁'),
        image_congr henums, hsame]
    · obtain ⟨hunmet, hunmet'⟩ := habreast.unmet id hid
      simp only [Graph.field?, hunmet, hunmet'] at hsame ⊢
      exact hsame
  · rintro rfl id hsame
    by_cases hid : id ∈ reached (binding registry' options params sent) sent.graph
    · obtain ⟨o₁, o, ho₁, ho, himage⟩ := fitted_of_bind h.bound hid
      obtain ⟨o₁', o', ho₁', ho', himage'⟩ := fitted_of_bind h'.bound (hreached ▸ hid)
      have htypeName := habreast.typeNames id
      rw [ho, ho', Option.map_some, Option.map_some, Option.some.injEq] at htypeName
      cases ho₁'.symm.trans (hsame.trans ho₁)
      rw [ho, ho', himage, himage', htypeName]
    · obtain ⟨hunmet, hunmet'⟩ := habreast.unmet id hid
      exact hunmet'.trans (hsame.trans hunmet.symm)

/-- **Binding is by name.**  A parameter is bound to what was sent under its name, and so is each
declared field of an object that is met; a look-up finds it, unless the name was sent more than
once.  And where no name was sent more than once, no other argument or field that was sent matters,
and no other declaration, as long as scalars are added, removed, changed or put into another order
only. -/
theorem bound_by_name {registry : Registry} {options : DecodeOptions} {params : List FieldDecl}
    {sent a : Arguments} (hr : registry.DistinctFields)
    (hparams : (params.map FieldDecl.name).Nodup)
    (h : Projection.bind registry options params sent = .ok a) :
    (∀ d ∈ params, Binds registry options sent.values a.values d) ∧
    (∀ id ∈ reached (binding registry options params sent) sent.graph, ∃ o o',
      sent.graph.get? id = some o ∧ a.graph.get? id = some o' ∧
      ∀ s, registry.type? o'.typeName = some s → ∀ d ∈ s.fields,
        Binds registry options o.fields o'.fields d) ∧
    ∀ registry' params' sent' a', sent.DistinctNames →
      DistinctlyBound registry' options params' sent' a' → registry.SameComposites registry' →
      FieldDecl.composites params' = FieldDecl.composites params → sent.SameComposites sent' →
      reached (binding registry' options params' sent') sent'.graph =
          reached (binding registry options params sent) sent.graph ∧
        Arguments.Agree registry registry' params params' sent sent' a a' := by
  refine ⟨fun d hd => binds_of_bind hparams h hd, fun id hid => ?_, ?_⟩
  · obtain ⟨o, o', ho, ho', himage⟩ := fitted_of_bind h hid
    exact ⟨o, o', ho, ho', fun s hs d hd => binds_fields hr himage hs hd⟩
  · intro registry' params' sent' a' hsent h' hrr hpp hss
    have hbound : DistinctlyBound registry options params sent a := ⟨hr, hparams, hsent, h⟩
    have habreast := abreast_of_bind hbound h' hrr hpp hss
    exact ⟨habreast.visited, agree_of_abreast hbound h' hrr.enums habreast⟩

/-- The second time the parameters, the fields of the type and the arguments stand in another order,
with other scalars among them. -/
theorem bound_by_name_reordered :
    let registry : Registry :=
      { types := [⟨"Node", [⟨"next", .object "Node", true⟩, ⟨"weight", .float, false⟩]⟩] }
    let registry' : Registry :=
      { types := [⟨"Node", [⟨"size", .int, false⟩, ⟨"next", .object "Node", true⟩]⟩] }
    let params : List FieldDecl := [⟨"count", .int, false⟩, ⟨"it", .object "Node", true⟩]
    let params' : List FieldDecl :=
      [⟨"it", .object "Node", true⟩, ⟨"name", .str, false⟩, ⟨"count", .int, false⟩]
    let sent : Arguments :=
      ⟨⟨#[⟨"Node", [("weight", .int 3), ("next", .object 0)]⟩]⟩,
        [("count", .int 2), ("it", .object 0)]⟩
    let sent' : Arguments :=
      ⟨⟨#[⟨"Node", [("next", .object 0), ("size", .int 5)]⟩]⟩,
        [("it", .object 0), ("more", .bool true), ("count", .int 2)]⟩
    let a : Arguments :=
      ⟨⟨#[⟨"Node", [("next", .object 0), ("weight", .float 0x4008000000000000)]⟩]⟩,
        [("count", .int 2), ("it", .object 0)]⟩
    let a' : Arguments :=
      ⟨⟨#[⟨"Node", [("size", .int 5), ("next", .object 0)]⟩]⟩,
        [("it", .object 0), ("name", .null), ("count", .int 2)]⟩
    Projection.bind registry {} params sent = .ok a ∧
      Projection.bind registry' {} params' sent' = .ok a' ∧
      (∀ d ∈ params, Binds registry {} sent.values a.values d) ∧
      Arguments.Agree registry registry' params params' sent sent' a a' := by
  intro registry registry' params params' sent sent' a a'
  have hr : registry.DistinctFields := by decide
  have hr' : registry'.DistinctFields := by decide
  have hrr : registry.SameComposites registry' := by
    refine ⟨rfl, fun name => ?_⟩
    by_cases hname : "Node" = name
    · subst hname
      exact .some ⟨rfl, rfl⟩
    · simp [Registry.type?, registry, registry', hname]
  have hsent : sent.DistinctNames := ⟨by decide, by decide⟩
  have hsent' : sent'.DistinctNames := ⟨by decide, by decide⟩
  have hss : sent.SameComposites sent' := by
    refine ⟨rfl, fun id => ?_⟩
    rcases id with _ | id
    · exact .some ⟨rfl, rfl⟩
    · exact .none
  have hbind : Projection.bind registry {} params sent = .ok a := rfl
  have hbind' : Projection.bind registry' {} params' sent' = .ok a' := rfl
  obtain ⟨hbinds, -, hagree⟩ := bound_by_name hr (by decide) hbind
  exact ⟨hbind, hbind', hbinds,
    (hagree registry' params' sent' a' hsent ⟨hr', by decide, hsent', hbind'⟩ hrr rfl hss).2⟩

/-- **A name that was sent twice is not always found where a look-up finds it**: behind the first
parameter the last argument moves forward, so the second parameter is bound to the later one of the
two arguments under its name.  On its own it is bound to the earlier one. -/
theorem later_of_repeated_name :
    let first : FieldDecl := ⟨"a", .int, false⟩
    let second : FieldDecl := ⟨"b", .int, false⟩
    let sent : Arguments := ⟨{}, [("a", .int 1), ("b", .int 2), ("b", .int 3)]⟩
    Projection.bind {} {} [first, second] sent = .ok ⟨{}, [("a", .int 1), ("b", .int 3)]⟩ ∧
      Projection.bind {} {} [second] sent = .ok ⟨{}, [("b", .int 2)]⟩ ∧
      sent.values.get? "b" = some (.int 2) :=
  ⟨rfl, rfl, rfl⟩

end RemoteCall
