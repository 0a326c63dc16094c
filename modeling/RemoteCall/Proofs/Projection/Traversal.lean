/-
# The references through which a projection goes

A value takes a projection through the references that its type exposes in it, in order, and through
nothing else: a value that has the declared kind already is fitted by going through its references,
and stays as it is.  What a projection does to the graph is therefore a traversal.  It goes through
references one after the other; an object that it meets for the first time becomes what fitting
makes of it, as soon as the traversal has gone through the references in its fields.
-/
import RemoteCall.Proofs.Projection.Faithful

namespace RemoteCall

namespace Projection

/-! ## References in values -/

mutual

/-- The references that a type exposes in a value, in order, each with the type that is declared
for it there. -/
def references : TypeTag → Value → List (Nat × Option String)
  | .any, .object id => [(id, none)]
  | .list element, .list vs => referencesItems element vs
  | .set element, .set vs => referencesItems element vs
  | .map keyTag valueTag, .map es => referencesEntries keyTag valueTag es
  | .object name, .object id => [(id, some name)]
  | _, _ => []
  termination_by structural _ v => v

/-- The references in items. -/
def referencesItems (element : TypeTag) : List Value → List (Nat × Option String)
  | [] => []
  | v :: rest => references element v ++ referencesItems element rest
  termination_by structural vs => vs

/-- The references in map entries. -/
def referencesEntries (keyTag valueTag : TypeTag) :
    List (Value × Option Value) → List (Nat × Option String)
  | [] => []
  | (k, none) :: rest => references keyTag k ++ referencesEntries keyTag valueTag rest
  | (k, some v) :: rest =>
    references keyTag k ++ (references valueTag v ++ referencesEntries keyTag valueTag rest)
  termination_by structural es => es

end

@[simp] lemma references_null (tag : TypeTag) : references tag .null = [] := by
  cases tag <;> rfl

lemma referencesItems_eq_flatMap (element : TypeTag) (vs : List Value) :
    referencesItems element vs = vs.flatMap (references element) := by
  induction vs with
  | nil => rfl
  | cons v rest ih => rw [referencesItems, ih, List.flatMap_cons]

lemma referencesEntries_eq_flatMap (keyTag valueTag : TypeTag) (es : List (Value × Option Value)) :
    referencesEntries keyTag valueTag es = es.flatMap fun e =>
      references keyTag e.1 ++ e.2.toList.flatMap (references valueTag) := by
  induction es with
  | nil => rfl
  | cons e rest ih =>
    obtain ⟨k, v⟩ := e
    cases v <;> simp [referencesEntries, ih]

variable {registry : Registry} {options : DecodeOptions}

/-- Fitting a value changes no reference in it. -/
@[simp] lemma references_image (tag : TypeTag) (v : Value) :
    references tag (image registry options tag v) = references tag v := by
  induction v using Value.parts_induction generalizing tag with
  | h v ih =>
  unfold image
  split
  case h_3 element vs =>
    simp only [imageItems_eq_map, references, referencesItems_eq_flatMap, List.flatMap_map]
    exact List.flatMap_congr fun v hv => ih v hv element
  case h_4 element vs =>
    simp only [imageItems_eq_map, references, referencesItems_eq_flatMap, List.flatMap_map]
    exact List.flatMap_congr fun v hv => ih v hv element
  case h_5 keyTag valueTag es =>
    simp only [imageEntries_eq_map, references, referencesEntries_eq_flatMap, List.flatMap_map,
      imageEntry, Option.toList_map]
    refine List.flatMap_congr fun e he => ?_
    rw [ih e.1 (Value.key_mem_parts he)]
    refine congrArg (references keyTag e.1 ++ ·) (List.flatMap_congr fun v hv => ?_)
    exact ih v (Value.value_mem_parts he (Option.mem_toList.mp hv)) valueTag
  all_goals rfl

/-! ## Going through references -/

/-- The steps that fit the objects of references, in order. -/
def visit (object : Nat → Option String → Step Unit) (refs : List (Nat × Option String)) :
    Step Unit :=
  refs.forM fun r => object r.1 r.2

section Visit

variable {object : Nat → Option String → Step Unit} {refs refs' : List (Nat × Option String)}

@[simp] lemma visit_nil : visit object [] = pure () := rfl

lemma visit_cons (r : Nat × Option String) :
    visit object (r :: refs) = object r.1 r.2 >>= fun _ => visit object refs := rfl

lemma visit_singleton (r : Nat × Option String) : visit object [r] = object r.1 r.2 := by
  rw [visit_cons, visit_nil]
  exact bind_pure (object r.1 r.2)

lemma visit_append :
    visit object (refs ++ refs') = visit object refs >>= fun _ => visit object refs' := by
  simp [visit, List.forM_append]

/-! ## Values that have the declared kind -/

lemma constant_of_knows {enumName c : String} (h : registry.Knows enumName c) :
    constant registry options enumName c = .ok c := by
  rcases hs : registry.enum? enumName with _ | s
  · simp [constant, hs]
  · simp [constant, hs, h s hs]

lemma items_eq_visit {path : String} {element : TypeTag} {vs : List Value}
    (h : ∀ v ∈ vs, value registry options object path element v =
      visit object (references element v) >>= fun _ => pure v) :
    items registry options object path element vs =
      visit object (referencesItems element vs) >>= fun _ => pure vs := by
  induction vs with
  | nil => rfl
  | cons v rest ih =>
    obtain ⟨hv, hrest⟩ := List.forall_mem_cons.mp h
    simp only [items, referencesItems, hv, ih hrest, visit_append, bind_assoc, pure_bind]

lemma entries_eq_visit {path : String} {keyTag valueTag : TypeTag}
    {es : List (Value × Option Value)}
    (hk : ∀ e ∈ es, value registry options object path keyTag e.1 =
      visit object (references keyTag e.1) >>= fun _ => pure e.1)
    (hv : ∀ e ∈ es, ∀ v, e.2 = some v → value registry options object path valueTag v =
      visit object (references valueTag v) >>= fun _ => pure v) :
    entries registry options object path keyTag valueTag es =
      visit object (referencesEntries keyTag valueTag es) >>= fun _ => pure es := by
  induction es with
  | nil => rfl
  | cons e rest ih =>
    obtain ⟨hk, hks⟩ := List.forall_mem_cons.mp hk
    obtain ⟨hv, hvs⟩ := List.forall_mem_cons.mp hv
    obtain ⟨k, v⟩ := e
    cases v with
    | none =>
      simp only [entries, referencesEntries, hk, ih hks hvs, visit_append, bind_assoc, pure_bind]
    | some v =>
      simp only [entries, referencesEntries, hk, hv v rfl, ih hks hvs, visit_append, bind_assoc,
        pure_bind]

/-- **A value that has the declared kind stays as it is**, and fitting it goes through its
references. -/
lemma value_eq_visit {S : Nat → Prop} {tag : TypeTag} {v : Value} (h : Fits registry S tag v)
    (path : String) :
    value registry options object path tag v =
      visit object (references tag v) >>= fun _ => pure v := by
  induction h with
  | null tag => cases tag <;> rfl
  | any v =>
    cases v with
    | object id => rw [references, visit_singleton]; rfl
    | _ => rfl
  | @enum enumName c hc =>
    rw [value, constant_of_knows hc]
    rfl
  | list _ ih => simp only [value, references, items_eq_visit ih, bind_assoc, pure_bind]
  | set _ ih => simp only [value, references, items_eq_visit ih, bind_assoc, pure_bind]
  | map _ _ ihk ihv =>
    simp only [value, references, entries_eq_visit ihk ihv, bind_assoc, pure_bind]
  | object declared _ => rw [references, visit_singleton]; rfl
  | _ => rfl

/-! ## Objects that have the declared fields -/

/-- The references in the fields of an object. -/
def fieldReferences (registry : Registry) (o : Node) : List (Nat × Option String) :=
  (registry.places o).flatMap fun w => references w.1 w.2

lemma place_eq_visit {S : Nat → Prop} {missing : FieldDecl → Misfit} {path : FieldDecl → String}
    {d : FieldDecl} {v : Value} (hnull : d.mandatory = true → v.isNull = false)
    (h : Fits registry S d.tag v) :
    place (fun d v => value registry options object (path d) d.tag v) missing d v =
      visit object (references d.tag v) >>= fun _ => pure v := by
  cases v with
  | null =>
    have hopt : d.mandatory = false := by
      by_contra hne
      exact absurd (hnull (Bool.eq_true_of_not_eq_false hne)) (by simp [Value.isNull])
    simp [place, Value.isNull, hopt]
  | _ => exact value_eq_visit h _

lemma fill_eq_visit {S : Nat → Prop} {missing : FieldDecl → Misfit} {path : FieldDecl → String}
    {ds : List FieldDecl} {fields sent : Named Value}
    (h : FieldsConform (Fits registry S) ds fields)
    (hsent : taken ds sent = fields.map Prod.snd) :
    fill (fun d v => value registry options object (path d) d.tag v) missing ds sent =
      visit object ((List.zipWith (fun (d : FieldDecl) (e : String × Value) => (d.tag, e.2)) ds
        fields).flatMap fun w => references w.1 w.2) >>= fun _ => pure fields := by
  induction h generalizing sent with
  | nil => rfl
  | @cons d e ds fields hd _ ih =>
    obtain ⟨name, v⟩ := e
    obtain ⟨rfl, hnull, hfits⟩ := hd
    simp only [taken, List.map_cons, List.cons.injEq] at hsent
    simp only [fill, hsent.1, ih hsent.2, place_eq_visit hnull hfits, List.zipWith_cons_cons,
      List.flatMap_cons, visit_append, bind_assoc, pure_bind]

lemma names_of_fieldsConform {R : TypeTag → Value → Prop} {ds : List FieldDecl}
    {fields : Named Value} (h : FieldsConform R ds fields) :
    fields.names = ds.map FieldDecl.name := by
  induction h with
  | nil => rfl
  | cons hd _ ih =>
    rw [Named.names, List.map_cons, List.map_cons, hd.1, ← ih]
    rfl

lemma map_get?_of_fieldsConform {R : TypeTag → Value → Prop} {ds : List FieldDecl}
    {fields sent : Named Value} (h : FieldsConform R ds fields)
    (hsent : ∀ e ∈ fields, sent.get? e.1 = some e.2) :
    ds.map (fun d => (sent.get? d.name).getD .null) = fields.map Prod.snd := by
  induction h with
  | nil => rfl
  | cons hd _ ih =>
    obtain ⟨he, hrest⟩ := List.forall_mem_cons.mp hsent
    simp only [List.map_cons, ← hd.1, he, Option.getD_some, ih hrest]

/-- The declared places of an object that has the declared fields take just these. -/
lemma taken_of_fieldsConform {R : TypeTag → Value → Prop} {ds : List FieldDecl}
    {fields : Named Value} (hds : (ds.map FieldDecl.name).Nodup)
    (h : FieldsConform R ds fields) : taken ds fields = fields.map Prod.snd := by
  have hnames : fields.names.Nodup := names_of_fieldsConform h ▸ hds
  rw [taken_eq_map hds hnames]
  exact map_get?_of_fieldsConform h fun e he => (Named.get?_eq_some_iff hnames).mpr he

lemma keep_eq_visit (fields : Named Value) :
    keep (fun name v => value registry options object name .any v) fields =
      visit object (fields.flatMap fun e => references .any e.2) >>= fun _ => pure fields := by
  induction fields with
  | nil => rfl
  | cons e rest ih =>
    have hv : value registry options object e.1 .any e.2 =
        visit object (references .any e.2) >>= fun _ => pure e.2 :=
      value_eq_visit (.any e.2 : Fits registry (fun _ => True) .any e.2) e.1
    simp only [keep, hv, ih, List.flatMap_cons, visit_append, bind_assoc, pure_bind]

/-- **An object that has the fields of its type stays as it is**, and fitting it goes through the
references in its fields. -/
lemma node_eq_visit (hr : registry.DistinctFields) {S : Nat → Prop} {o : Node}
    (ho : registry.Declares (Fits registry S) o) :
    node (value registry options object) o (registry.type? o.typeName) =
      visit object (fieldReferences registry o) >>= fun _ => pure o := by
  rcases hs : registry.type? o.typeName with _ | schema
  · simp only [node, keep_eq_visit, fieldReferences, Registry.places, hs, List.flatMap_map,
      bind_assoc, pure_bind]
  · have hconform := ho schema hs
    have hfields : taken schema.fields o.fields = o.fields.map Prod.snd :=
      taken_of_fieldsConform (hr schema (List.mem_of_find?_eq_some hs)) hconform
    simp only [node, fill_eq_visit hconform hfields, fieldReferences, Registry.places, hs,
      bind_assoc, pure_bind]
    rw [Registry.name_of_type? hs]

end Visit

/-! ## Traversals -/

/-- Going through references leads from one state to another, where fitting goes `n` objects deep
at most.  An object that has been met is passed over.  Another one is met and, behind the
traversal of its fields, becomes what fitting makes of it under the type that the reference
declares. -/
inductive Traversal (registry : Registry) (options : DecodeOptions) :
    Nat → Progress → List (Nat × Option String) → Progress → Prop
  | done {n : Nat} {p : Progress} : Traversal registry options n p [] p
  | again {n id : Nat} {declared : Option String} {refs : List (Nat × Option String)}
      {p q : Progress} :
      id ∈ p.visited → Traversal registry options n p refs q →
        Traversal registry options n p ((id, declared) :: refs) q
  | first {n id : Nat} {declared : Option String} {refs : List (Nat × Option String)}
      {p t q : Progress} {o o' : Node} :
      id ∉ p.visited → p.graph.get? id = some o →
        o' = nodeImage registry options o (schemaFor? registry o.typeName declared) →
        Traversal registry options n { p with visited := id :: p.visited }
          (fieldReferences registry o') t →
        Traversal registry options (n + 1) { t with graph := t.graph.modify id fun _ => o' } refs
          q →
        Traversal registry options (n + 1) p ((id, declared) :: refs) q

namespace Traversal

variable {n : Nat} {refs refs' : List (Nat × Option String)} {p q r : Progress}

lemma append (h : Traversal registry options n p refs q)
    (h' : Traversal registry options n q refs' r) :
    Traversal registry options n p (refs ++ refs') r := by
  induction h with
  | done => exact h'
  | again hid _ ih => exact .again hid (ih h')
  | first hid ho ho' hfields _ _ ih => exact .first hid ho ho' hfields (ih h')

lemma met (h : Traversal registry options n p refs q) : p.visited ⊆ q.visited := by
  induction h with
  | done => exact List.Subset.refl _
  | again _ _ ih => exact ih
  | first _ _ _ _ _ ihfields ih =>
    exact List.Subset.trans (List.Subset.trans (List.subset_cons_self _ _) ihfields) ih

/-- Objects that have been met before the traversal, or are not met on it, are kept. -/
lemma kept (h : Traversal registry options n p refs q) {i : Nat}
    (hi : i ∈ p.visited ∨ i ∉ q.visited) : q.graph.get? i = p.graph.get? i := by
  induction h with
  | done => rfl
  | again _ _ ih => exact ih hi
  | @first n id declared refs p t q o o' hid _ _ hfields hrest ihfields ih =>
    have hmet : id ∈ q.visited := hrest.met (hfields.met List.mem_cons_self)
    have hne : i ≠ id := by
      rintro rfl
      exact hi.elim hid fun h => h hmet
    have hrest' := ih (hi.imp_left fun h => hfields.met (List.mem_cons_of_mem _ h))
    have hfields' := ihfields (hi.imp (List.mem_cons_of_mem _) fun h ht => h (hrest.met ht))
    rw [hrest', Graph.get?_modify_of_ne _ hne]
    exact hfields'

end Traversal

/-- A step goes through references: when it succeeds, it leads where going through them leads. -/
def GoesThrough {α : Type} (registry : Registry) (options : DecodeOptions) (n : Nat)
    (refs : List (Nat × Option String)) (m : Step α) : Prop :=
  ∀ p a q, m.run p = .ok (a, q) → Traversal registry options n p refs q

section GoesThrough

variable {α β : Type} {n : Nat} {refs refs' : List (Nat × Option String)} {m : Step α}
  {k : α → Step β}

lemma goesThrough_pure (a : α) : GoesThrough registry options n [] (pure a) := by
  intro p a' q hrun
  cases run_pure_eq_ok.mp hrun
  exact .done

lemma goesThrough_throw (e : Misfit) :
    GoesThrough registry options n refs (throw e : Step α) := by
  intro p a q hrun
  cases hrun

lemma goesThrough_lift (x : Except Misfit α) :
    GoesThrough registry options n [] (StateT.lift x : Step α) := by
  cases x with
  | error e => exact goesThrough_throw e
  | ok a => exact goesThrough_pure a

lemma GoesThrough.bind (hm : GoesThrough registry options n refs m)
    (hk : ∀ a, GoesThrough registry options n refs' (k a)) :
    GoesThrough registry options n (refs ++ refs') (m >>= k) := by
  intro p b q hrun
  obtain ⟨a, t, ha, hb⟩ := run_bind_eq_ok.mp hrun
  exact (hm p a t ha).append (hk a t b q hb)

lemma GoesThrough.map (hm : GoesThrough registry options n refs m) (f : α → β) :
    GoesThrough registry options n refs (m >>= fun a => pure (f a)) := by
  rw [← List.append_nil refs]
  exact hm.bind fun a => goesThrough_pure (f a)

end GoesThrough

section Steps

variable {n : Nat} {object : Nat → Option String → Step Unit}

lemma goesThrough_items {path : String} {element : TypeTag} {vs : List Value}
    (h : ∀ v ∈ vs, GoesThrough registry options n (references element v)
      (value registry options object path element v)) :
    GoesThrough registry options n (referencesItems element vs)
      (items registry options object path element vs) := by
  induction vs with
  | nil =>
    unfold items
    exact goesThrough_pure []
  | cons v rest ih =>
    obtain ⟨hv, hrest⟩ := List.forall_mem_cons.mp h
    unfold items
    exact hv.bind fun w => (ih hrest).map _

lemma goesThrough_entries {path : String} {keyTag valueTag : TypeTag}
    {es : List (Value × Option Value)}
    (h : ∀ v ∈ (Value.map es).parts, ∀ tag,
      GoesThrough registry options n (references tag v)
        (value registry options object path tag v)) :
    GoesThrough registry options n (referencesEntries keyTag valueTag es)
      (entries registry options object path keyTag valueTag es) := by
  induction es with
  | nil =>
    unfold entries
    exact goesThrough_pure []
  | cons e rest ih =>
    obtain ⟨k, v⟩ := e
    have hrest := ih fun w hw => h w (List.mem_append_right _ hw)
    have hk := h k List.mem_cons_self keyTag
    cases v with
    | none =>
      unfold entries
      exact hk.bind fun k' => hrest.map _
    | some v =>
      have hv := h v (List.mem_cons_of_mem _ List.mem_cons_self) valueTag
      unfold entries
      exact hk.bind fun k' => hv.bind fun v' => hrest.map _

/-- **Fitting a value goes through its references**, if fitting an object goes through one. -/
lemma goesThrough_value
    (ho : ∀ id declared, GoesThrough registry options n [(id, declared)] (object id declared))
    (path : String) (tag : TypeTag) (v : Value) :
    GoesThrough registry options n (references tag v)
      (value registry options object path tag v) := by
  induction v using Value.parts_induction generalizing tag with
  | h v ih =>
  unfold value
  split
  case h_1 =>
    rw [references_null]
    exact goesThrough_pure _
  case h_2 id => exact (ho id none).map _
  case h_3 hobject =>
    have hrefs : references .any v = [] := by
      cases v with
      | object id => exact absurd rfl (hobject id)
      | _ => rfl
    rw [hrefs]
    exact goesThrough_pure v
  case h_10 => exact (goesThrough_lift _).map _
  case h_11 element vs => exact (goesThrough_items fun v hv => ih v hv element).map _
  case h_12 element vs => exact (goesThrough_items fun v hv => ih v hv element).map _
  case h_13 keyTag valueTag es => exact (goesThrough_entries ih).map _
  case h_14 name id => exact (ho id (some name)).map _
  case h_15 => exact goesThrough_throw _
  all_goals exact goesThrough_pure _

lemma goesThrough_place {fit : FieldDecl → Value → Step Value} {missing : FieldDecl → Misfit}
    {d : FieldDecl} {found : Value}
    (hfit : GoesThrough registry options n (references d.tag found) (fit d found)) :
    GoesThrough registry options n (references d.tag found) (place fit missing d found) := by
  unfold place
  split
  · next hnull =>
    split
    · exact goesThrough_throw _
    · cases found with
      | null =>
        rw [references_null]
        exact goesThrough_pure _
      | _ => cases hnull
  · exact hfit

lemma goesThrough_fill {fit : FieldDecl → Value → Step Value} {missing : FieldDecl → Misfit}
    (hfit : ∀ d v, GoesThrough registry options n (references d.tag v) (fit d v))
    (ds : List FieldDecl) (sent : Named Value) :
    GoesThrough registry options n
      ((List.zipWith (fun (d : FieldDecl) v => (d.tag, v)) ds (taken ds sent)).flatMap fun w =>
        references w.1 w.2) (fill fit missing ds sent) := by
  induction ds generalizing sent with
  | nil => exact goesThrough_pure _
  | cons d ds ih =>
    unfold fill
    exact (goesThrough_place (hfit d _)).bind fun v => (ih _).map _

lemma goesThrough_keep {fit : String → Value → Step Value}
    (hfit : ∀ name v, GoesThrough registry options n (references .any v) (fit name v))
    (fields : Named Value) :
    GoesThrough registry options n (fields.flatMap fun e => references .any e.2)
      (keep fit fields) := by
  induction fields with
  | nil => exact goesThrough_pure _
  | cons e rest ih => exact (hfit e.1 e.2).bind fun v => ih.map _

/-- The references in the fields of an object without a declaration are those in all its fields. -/
lemma fieldReferences_of_type?_none {o : Node} (h : registry.type? o.typeName = none) :
    fieldReferences registry o = o.fields.flatMap fun e => references .any e.2 := by
  rw [fieldReferences, Registry.places, h, List.flatMap_map]

/-- The references in the fields of what an object becomes are those in what its fields take. -/
lemma fieldReferences_nodeImage {o : Node} {declared : Option String} {schema : TypeSchema}
    (hs : schemaFor? registry o.typeName declared = some schema) :
    fieldReferences registry (nodeImage registry options o (some schema)) =
      (List.zipWith (fun (d : FieldDecl) v => (d.tag, v)) schema.fields
        (taken schema.fields o.fields)).flatMap fun w => references w.1 w.2 := by
  have hzip : ∀ (ds : List FieldDecl) (vs : List Value),
      List.zipWith (fun d v => (d.tag, image registry options d.tag v)) ds vs =
        (List.zipWith (fun d v => (d.tag, v)) ds vs).map fun w =>
          (w.1, image registry options w.1 w.2) := fun ds vs => by
    rw [List.map_zipWith]
  rw [fieldReferences, nodeImage, places_filled (type?_of_schemaFor? hs), hzip, List.flatMap_map]
  simp only [references_image]

lemma goesThrough_node
    (hfit : ∀ path tag v, GoesThrough registry options n (references tag v)
      (value registry options object path tag v)) (o : Node) (declared : Option String) :
    GoesThrough registry options n
      (fieldReferences registry
        (nodeImage registry options o (schemaFor? registry o.typeName declared)))
      (node (value registry options object) o (schemaFor? registry o.typeName declared)) := by
  rcases hs : schemaFor? registry o.typeName declared with _ | schema
  · rw [nodeImage, fieldReferences_of_type?_none (type?_of_schemaFor?_none hs)]
    exact (goesThrough_keep (fun name v => hfit name .any v) o.fields).map _
  · rw [fieldReferences_nodeImage hs]
    exact (goesThrough_fill (fun d v => hfit _ d.tag v) schema.fields o.fields).map _

end Steps

/-- **Fitting an object goes through the reference to it.** -/
lemma goesThrough_object (n id : Nat) (declared : Option String) :
    GoesThrough registry options n [(id, declared)] (object registry options n id declared) := by
  induction n generalizing id declared with
  | zero =>
    intro p a q hrun
    unfold object at hrun
    by_cases hid : id ∈ p.visited
    · rw [run_meet_of_mem hid] at hrun
      cases hrun
      exact .again hid .done
    · rw [run_meet_of_not_mem hid] at hrun
      cases hrun
  | succ n ih =>
    intro p a q hrun
    unfold object at hrun
    by_cases hid : id ∈ p.visited
    · rw [run_meet_of_mem hid] at hrun
      cases hrun
      exact .again hid .done
    rw [run_meet_of_not_mem hid] at hrun
    rcases ho : p.graph.get? id with _ | o
    · rw [run_rewrite_of_none (p := { p with visited := id :: p.visited }) ho] at hrun
      cases hrun
    · rw [run_rewrite (p := { p with visited := id :: p.visited }) ho] at hrun
      obtain ⟨o', t, hnode, hmodify⟩ := run_bind_eq_ok.mp hrun
      cases hmodify
      have hfit : ∀ P, FitsImages registry options (Rewrites registry options P) P
          (value registry options (object registry options n)) := fun P path tag v hP =>
        ensures_value rewrites_passage (fun _ _ hi => ensures_object n hi) path hP
      have hbecame : Became registry options (fun _ => True) declared o o' :=
        (ensures_node rewrites_passage (hfit _) _ o' t hnode).2 _ fun _ _ => trivial
      have hfields := goesThrough_node (goesThrough_value ih) o declared _ _ _ hnode
      exact .first hid ho hbecame.image (hbecame.image ▸ hfields) .done

end Projection

end RemoteCall
