/-
# What a projection does to the graph

A step of a projection meets objects and puts what they become in their place.  The objects under
way when it begins have been met before, and each is put in place by the step that has met it; so
what a step does to the graph can be said without a word about what is under way.  The objects that
it meets have become, when it ends, what fitting makes of them, and all others are as they were.
-/
import RemoteCall.Proofs.Projection.Conformance
import RemoteCall.Proofs.Projection.Coupling
import RemoteCall.Proofs.Projection.Fitted
import RemoteCall.Proofs.Projection.Image

namespace RemoteCall

namespace Projection

/-! ## Steps that keep to a relation -/

/-- A relation between the states before and after steps, under which steps may follow each other
and forget no object that they have met. -/
structure Passage (T : Progress → Progress → Prop) : Prop where
  refl : ∀ p, T p p
  trans : ∀ p q r, T p q → T q r → T p r
  met : ∀ p q, T p q → p.visited ⊆ q.visited

/-- A step that, when it succeeds, keeps to the relation `T` and has a result as `post` says, for
every set of objects that holds all those met by then. -/
def Ensures {α : Type} (T : Progress → Progress → Prop) (m : Step α)
    (post : (Nat → Prop) → α → Prop) : Prop :=
  ∀ p a q, m.run p = .ok (a, q) →
    T p q ∧ ∀ S : Nat → Prop, (∀ id ∈ q.visited, S id) → post S a

variable {T : Progress → Progress → Prop}

section Ensures

variable {α β : Type} {m : Step α} {k : α → Step β} {post : (Nat → Prop) → α → Prop}
  {post' : (Nat → Prop) → β → Prop}

lemma ensures_pure (hT : Passage T) {a : α} (h : ∀ S, post S a) : Ensures T (pure a) post := by
  intro p a' q hrun
  cases run_pure_eq_ok.mp hrun
  exact ⟨hT.refl p, fun S _ => h S⟩

lemma ensures_throw (e : Misfit) : Ensures T (throw e : Step α) post := by
  intro p a q hrun
  cases hrun

/-- The rest of a sequence may use of the first result what its step says, as the set of objects met
only grows. -/
lemma Ensures.bind (hT : Passage T) (hm : Ensures T m post)
    (hk : ∀ a, Ensures T (k a) fun S b => post S a → post' S b) :
    Ensures T (m >>= k) post' := by
  intro p b q hrun
  obtain ⟨a, t, ha, hb⟩ := run_bind_eq_ok.mp hrun
  obtain ⟨hpt, hpost⟩ := hm p a t ha
  obtain ⟨htq, hpost'⟩ := hk a t b q hb
  exact ⟨hT.trans p t q hpt htq,
    fun S hS => hpost' S hS (hpost S fun id hid => hS id (hT.met t q htq hid))⟩

/-- The last step may change the result. -/
lemma Ensures.map (hT : Passage T) (hm : Ensures T m post) {f : α → β}
    (hf : ∀ S a, post S a → post' S (f a)) : Ensures T (m >>= fun a => pure (f a)) post' :=
  hm.bind hT fun a => ensures_pure hT fun S => hf S a

lemma ensures_lift (hT : Passage T) {x : Except Misfit α} (h : ∀ a, x = .ok a → ∀ S, post S a) :
    Ensures T (StateT.lift x : Step α) post := by
  intro p a q hrun
  cases x with
  | error e => cases hrun
  | ok b =>
    cases hrun
    exact ⟨hT.refl p, fun S _ => h a rfl S⟩

end Ensures

/-! ## Objects that a type exposes -/

/-- A type exposes an object in a value, with the type that is declared for it there: through items
and entries as far as the type declares these, but not in a collection where any value is
allowed. -/
inductive Exposes (id : Nat) : Option String → TypeTag → Value → Prop
  | any : Exposes id none .any (.object id)
  | object (name : String) : Exposes id (some name) (.object name) (.object id)
  | list {declared : Option String} {element : TypeTag} {vs : List Value} {v : Value} :
      v ∈ vs → Exposes id declared element v → Exposes id declared (.list element) (.list vs)
  | set {declared : Option String} {element : TypeTag} {vs : List Value} {v : Value} :
      v ∈ vs → Exposes id declared element v → Exposes id declared (.set element) (.set vs)
  | key {declared : Option String} {keyTag valueTag : TypeTag}
      {es : List (Value × Option Value)} {e : Value × Option Value} :
      e ∈ es → Exposes id declared keyTag e.1 →
        Exposes id declared (.map keyTag valueTag) (.map es)
  | value {declared : Option String} {keyTag valueTag : TypeTag}
      {es : List (Value × Option Value)} {e : Value × Option Value} {v : Value} :
      e ∈ es → e.2 = some v → Exposes id declared valueTag v →
        Exposes id declared (.map keyTag valueTag) (.map es)

/-- All objects that a type exposes in a value are in a set. -/
def ExposesIn (S : Nat → Prop) (tag : TypeTag) (v : Value) : Prop :=
  ∀ id declared, Exposes id declared tag v → S id

lemma not_exposes_null {id : Nat} {declared : Option String} {tag : TypeTag} :
    ¬ Exposes id declared tag .null := by
  intro h
  cases h

/-- A type exposes the objects of a value in its image. -/
lemma Exposes.image {registry : Registry} {options : DecodeOptions} {id : Nat}
    {declared : Option String} {tag : TypeTag} {v : Value} (h : Exposes id declared tag v) :
    Exposes id declared tag (image registry options tag v) := by
  induction h with
  | any => exact .any
  | object name => exact .object name
  | list hv _ ih =>
    rw [image_list]
    exact .list (List.mem_map_of_mem hv) ih
  | set hv _ ih =>
    rw [image_set]
    exact .set (List.mem_map_of_mem hv) ih
  | key he _ ih =>
    rw [image_map]
    exact .key (List.mem_map_of_mem he) ih
  | value he hv _ ih =>
    rw [image_map]
    refine .value (List.mem_map_of_mem he) ?_ ih
    rw [imageEntry, hv, Option.map_some]

end Projection

namespace Registry

/-- The fields of an object, each with its declared type; where there is no declaration, any value
is allowed. -/
def places (r : Registry) (o : Node) : List (TypeTag × Value) :=
  match r.type? o.typeName with
  | none => o.fields.map fun e => (.any, e.2)
  | some s => List.zipWith (fun d e => (d.tag, e.2)) s.fields o.fields

/-- Declared types lead from the references in `P` to an object: it is one of those, or is exposed
by a field of an object in `V` to which they lead. -/
inductive Leads (r : Registry) (g : Graph) (V : Nat → Prop) (P : Nat → Option String → Prop) :
    Nat → Option String → Prop
  | given {id : Nat} {declared : Option String} : P id declared → Leads r g V P id declared
  | field {i id : Nat} {outer declared : Option String} {o : Node} {w : TypeTag × Value} :
      Leads r g V P i outer → V i → g.get? i = some o → w ∈ r.places o →
        Projection.Exposes id declared w.1 w.2 → Leads r g V P id declared

/-- Declared types lead from a value to an object, and declare a type for it in the reference by
which they do. -/
def LeadsFrom (r : Registry) (g : Graph) (tag : TypeTag) (v : Value) (id : Nat)
    (declared : Option String) : Prop :=
  r.Leads g (fun _ => True) (fun id declared => Projection.Exposes id declared tag v) id declared

lemma Leads.mono {r : Registry} {g g' : Graph} {V V' : Nat → Prop} {P : Nat → Option String → Prop}
    (hV : ∀ i, V i → V' i) (hg : ∀ i, V i → g'.get? i = g.get? i) {id : Nat}
    {declared : Option String} (h : r.Leads g V P id declared) : r.Leads g' V' P id declared := by
  induction h with
  | given hP => exact .given hP
  | field _ hi ho hw hexposes ih => exact .field ih (hV _ hi) ((hg _ hi).trans ho) hw hexposes

/-- What is led to from references that are led to themselves. -/
lemma Leads.trans {r : Registry} {g : Graph} {V : Nat → Prop} {P Q : Nat → Option String → Prop}
    (hQ : ∀ id declared, Q id declared → r.Leads g V P id declared) {id : Nat}
    {declared : Option String} (h : r.Leads g V Q id declared) : r.Leads g V P id declared := by
  induction h with
  | given hid => exact hQ _ _ hid
  | field _ hi ho hw hexposes ih => exact .field ih hi ho hw hexposes

end Registry

namespace Projection

/-! ## Values -/

variable {T : Progress → Progress → Prop} {P : Nat → Option String → Prop} {registry : Registry}
  {options : DecodeOptions}

section Values

variable {object : Nat → Option String → Step Unit}

/-- The outcome of fitting a value: its image, with the objects that the type exposes in it in the
set `S`. -/
def Images (registry : Registry) (options : DecodeOptions) (S : Nat → Prop) (tag : TypeTag)
    (v w : Value) : Prop :=
  w = image registry options tag v ∧ ExposesIn S tag w

lemma ensures_items (hT : Passage T) {path : String} {element : TypeTag} (vs : List Value)
    (h : ∀ v ∈ vs, Ensures T (value registry options object path element v) fun S w =>
      Images registry options S element v w) :
    Ensures T (items registry options object path element vs) fun S ws =>
      ws = vs.map (image registry options element) ∧ ∀ w ∈ ws, ExposesIn S element w := by
  induction vs with
  | nil =>
    unfold items
    exact ensures_pure hT fun S => ⟨rfl, fun w hw => absurd hw List.not_mem_nil⟩
  | cons v rest ih =>
    obtain ⟨hv, hrest⟩ := List.forall_mem_cons.mp h
    unfold items
    refine hv.bind hT fun w => (ih hrest).map hT ?_
    rintro S ws ⟨rfl, hws⟩ ⟨rfl, hw⟩
    exact ⟨rfl, List.forall_mem_cons.mpr ⟨hw, hws⟩⟩

lemma ensures_entries (hT : Passage T) {path : String} {keyTag valueTag : TypeTag}
    (es : List (Value × Option Value))
    (h : ∀ e ∈ es,
      (Ensures T (value registry options object path keyTag e.1) fun S w =>
        Images registry options S keyTag e.1 w) ∧
      ∀ v, e.2 = some v → Ensures T (value registry options object path valueTag v) fun S w =>
        Images registry options S valueTag v w) :
    Ensures T (entries registry options object path keyTag valueTag es) fun S fs =>
      fs = es.map (imageEntry registry options keyTag valueTag) ∧
        ∀ e ∈ fs, ExposesIn S keyTag e.1 ∧ ∀ v, e.2 = some v → ExposesIn S valueTag v := by
  induction es with
  | nil =>
    unfold entries
    exact ensures_pure hT fun S => ⟨rfl, fun e he => absurd he List.not_mem_nil⟩
  | cons e rest ih =>
    obtain ⟨⟨hk, hv⟩, hrest⟩ := List.forall_mem_cons.mp h
    have hrest := ih hrest
    obtain ⟨k, v⟩ := e
    cases v with
    | none =>
      unfold entries
      refine hk.bind hT fun k' => hrest.map hT ?_
      rintro S fs ⟨rfl, hfs⟩ ⟨rfl, hk⟩
      exact ⟨rfl, List.forall_mem_cons.mpr ⟨⟨hk, fun v hv => by cases hv⟩, hfs⟩⟩
    | some v =>
      unfold entries
      refine hk.bind hT fun k' => (hv v rfl).bind hT fun v' => hrest.map hT ?_
      rintro S fs ⟨rfl, hfs⟩ ⟨rfl, hv⟩ ⟨rfl, hk⟩
      refine ⟨rfl, List.forall_mem_cons.mpr ⟨⟨hk, ?_⟩, hfs⟩⟩
      rintro w ⟨⟩
      exact hv

lemma constant_eq_standIn {enumName c c' : String}
    (h : constant registry options enumName c = .ok c') :
    c' = registry.standIn options enumName c := by
  rcases hs : registry.enum? enumName with _ | s
  · simp only [constant, hs] at h
    cases h
    simp only [Registry.standIn, hs]
  · simp only [constant, hs] at h
    split at h
    · next hc =>
      cases h
      simp only [Registry.standIn, hs, hc, Bool.true_or, if_true]
    · next hc =>
      split at h
      · next hsentinel hstrict =>
        cases h
        simp [Registry.standIn, hs, hc, hstrict, hsentinel]
      · cases h

/-- **Fitting a value gives its image**, and meets the objects that the type exposes in it if
fitting an object meets that object. -/
lemma ensures_value (hT : Passage T)
    (ho : ∀ id declared, P id declared → Ensures T (object id declared) fun S _ => S id)
    (path : String) {tag : TypeTag} {v : Value}
    (hP : ∀ id declared, Exposes id declared tag v → P id declared) :
    Ensures T (value registry options object path tag v) fun S w =>
      Images registry options S tag v w := by
  induction v using Value.parts_induction generalizing tag with
  | h v ih =>
  unfold value
  split
  case h_1 =>
    exact ensures_pure hT fun S =>
      ⟨(image_null ..).symm, fun id declared h => absurd h not_exposes_null⟩
  case h_2 id =>
    refine (ho id none (hP id none .any)).map hT fun S _ hid => ⟨rfl, fun i declared hi => ?_⟩
    cases hi
    exact hid
  case h_3 v _ hobject =>
    refine ensures_pure hT fun S => ⟨(image_any ..).symm, fun i declared hi => ?_⟩
    cases hi
    exact absurd rfl (hobject i)
  case h_10 enumName c =>
    refine (ensures_lift hT fun c' hc S => constant_eq_standIn hc).map hT ?_
    rintro S c' rfl
    exact ⟨rfl, fun id declared h => by cases h⟩
  case h_11 element vs =>
    refine (ensures_items hT vs fun v hv => ih v hv fun id declared h =>
      hP id declared (.list hv h)).map hT ?_
    rintro S ws ⟨rfl, hws⟩
    refine ⟨(image_list ..).symm, fun id declared hid => ?_⟩
    cases hid with
    | list hv hid => exact hws _ hv id declared hid
  case h_12 element vs =>
    refine (ensures_items hT vs fun v hv => ih v hv fun id declared h =>
      hP id declared (.set hv h)).map hT ?_
    rintro S ws ⟨rfl, hws⟩
    refine ⟨(image_set ..).symm, fun id declared hid => ?_⟩
    cases hid with
    | set hv hid => exact hws _ hv id declared hid
  case h_13 keyTag valueTag es =>
    refine (ensures_entries hT es fun e he => ⟨?_, fun v hv => ?_⟩).map hT ?_
    · exact ih e.1 (Value.key_mem_parts he) fun id declared h => hP id declared (.key he h)
    · exact ih v (Value.value_mem_parts he hv) fun id declared h => hP id declared (.value he hv h)
    · rintro S fs ⟨rfl, hfs⟩
      refine ⟨(image_map ..).symm, fun id declared hid => ?_⟩
      cases hid with
      | key he hid => exact (hfs _ he).1 id declared hid
      | value he hv hid => exact (hfs _ he).2 _ hv id declared hid
  case h_14 name id =>
    refine (ho id (some name) (hP id _ (.object name))).map hT fun S _ hid =>
      ⟨rfl, fun i declared hi => ?_⟩
    cases hi
    exact hid
  case h_15 => exact ensures_throw _
  all_goals exact ensures_pure hT fun S => ⟨rfl, fun id declared h => by cases h⟩

end Values

/-! ## Fields -/

lemma ensures_place (hT : Passage T) {fit : FieldDecl → Value → Step Value}
    {missing : FieldDecl → Misfit} {d : FieldDecl} {found : Value}
    (hfit : Ensures T (fit d found) fun S w => Images registry options S d.tag found w) :
    Ensures T (place fit missing d found) fun S w =>
      w = image registry options d.tag found ∧ (d.mandatory = true → w.isNull = false) ∧
        ExposesIn S d.tag w := by
  unfold place
  split
  · next hnull =>
    split
    · exact ensures_throw _
    · next hopt =>
      have hfound : found = .null := by
        cases found <;> first | rfl | cases hnull
      refine ensures_pure hT fun S =>
        ⟨?_, fun h => absurd h hopt, fun id declared h => absurd h not_exposes_null⟩
      rw [hfound, image_null]
  · next hfound =>
    intro p w q hrun
    obtain ⟨hpq, hpost⟩ := hfit p w q hrun
    refine ⟨hpq, fun S hS => ?_⟩
    obtain ⟨rfl, hexposed⟩ := hpost S hS
    refine ⟨rfl, fun _ => ?_, hexposed⟩
    rw [isNull_image]
    exact Bool.eq_false_of_not_eq_true hfound

/-- **Filling declared places gives the images of what each takes.** -/
lemma ensures_fill (hT : Passage T) {fit : FieldDecl → Value → Step Value}
    {missing : FieldDecl → Misfit} (ds : List FieldDecl) (sent : Named Value)
    (hfit : ∀ x ∈ ds.zip (taken ds sent), Ensures T (fit x.1 x.2) fun S w =>
      Images registry options S x.1.tag x.2 w) :
    Ensures T (fill fit missing ds sent) fun S fields =>
      fields = filled registry options ds (taken ds sent) ∧
        FieldsConform (ExposesIn S) ds fields := by
  induction ds generalizing sent with
  | nil => exact ensures_pure hT fun S => ⟨rfl, .nil⟩
  | cons d ds ih =>
    obtain ⟨hd, hrest⟩ := List.forall_mem_cons.mp hfit
    unfold fill
    refine (ensures_place hT hd).bind hT fun w => (ih _ hrest).map hT ?_
    rintro S rest ⟨rfl, hrest⟩ ⟨rfl, hw⟩
    exact ⟨rfl, .cons ⟨rfl, hw⟩ hrest⟩

lemma ensures_keep (hT : Passage T) {fit : String → Value → Step Value} (fields : Named Value)
    (hfit : ∀ e ∈ fields, Ensures T (fit e.1 e.2) fun S w =>
      Images registry options S .any e.2 w) :
    Ensures T (keep fit fields) fun S fields' =>
      fields' = fields ∧ ∀ e ∈ fields, ExposesIn S .any e.2 := by
  induction fields with
  | nil => exact ensures_pure hT fun S => ⟨rfl, fun e he => absurd he List.not_mem_nil⟩
  | cons e rest ih =>
    obtain ⟨hv, hrest⟩ := List.forall_mem_cons.mp hfit
    refine hv.bind hT fun w => (ih hrest).map hT ?_
    rintro S rest' ⟨rfl, hrest⟩ ⟨rfl, hw⟩
    rw [image_any] at hw ⊢
    exact ⟨rfl, List.forall_mem_cons.mpr ⟨hw, hrest⟩⟩

/-! ## Objects -/

lemma places_filled {schema : TypeSchema} (hschema : registry.type? schema.name = some schema)
    (vs : List Value) :
    registry.places ⟨schema.name, filled registry options schema.fields vs⟩ =
      List.zipWith (fun d v => (d.tag, image registry options d.tag v)) schema.fields vs := by
  rw [Registry.places]
  simp only [hschema, filled]
  induction schema.fields generalizing vs with
  | nil => rfl
  | cons d ds ih =>
    cases vs with
    | nil => rfl
    | cons v vs => simp [ih]

/-- What the fields of an object expose. -/
def Offers (registry : Registry) (o : Node) (id : Nat) (declared : Option String) : Prop :=
  ∃ w ∈ registry.places o, Exposes id declared w.1 w.2

/-- What fitting makes of an object under a declared type: its image under the declaration that is
found for it, with all mandatory fields, and with the objects that its fields expose in the
set `S`. -/
structure Became (registry : Registry) (options : DecodeOptions) (S : Nat → Prop)
    (declared : Option String) (o o' : Node) : Prop where
  image : o' = nodeImage registry options o (schemaFor? registry o.typeName declared)
  declares : registry.Declares (fun _ _ => True) o'
  exposes : ∀ id outer, Offers registry o' id outer → S id

lemma exposes_of_fieldsConform {S : Nat → Prop} {ds : List FieldDecl} {fields : Named Value}
    (h : FieldsConform (ExposesIn S) ds fields) :
    ∀ w ∈ List.zipWith (fun (d : FieldDecl) (e : String × Value) => (d.tag, e.2)) ds fields,
      ExposesIn S w.1 w.2 := by
  induction h with
  | nil => exact fun w hw => absurd hw List.not_mem_nil
  | cons hd _ ih => exact List.forall_mem_cons.mpr ⟨hd.2.2, ih⟩

/-- A way to fit values to types, at a place, that gives their images as long as the types expose
no objects but those in `P`. -/
def FitsImages (registry : Registry) (options : DecodeOptions) (T : Progress → Progress → Prop)
    (P : Nat → Option String → Prop) (fit : String → TypeTag → Value → Step Value) : Prop :=
  ∀ path tag v, (∀ id declared, Exposes id declared tag v → P id declared) →
    Ensures T (fit path tag v) fun S w => Images registry options S tag v w

lemma ensures_node (hT : Passage T) {fit : String → TypeTag → Value → Step Value} {o : Node}
    {declared : Option String}
    (hfit : FitsImages registry options T
      (Offers registry (nodeImage registry options o (schemaFor? registry o.typeName declared)))
      fit) :
    Ensures T (node fit o (schemaFor? registry o.typeName declared)) fun S o' =>
      Became registry options S declared o o' := by
  rcases hs : schemaFor? registry o.typeName declared with _ | schema <;> rw [hs] at hfit
  · have hnone := type?_of_schemaFor?_none hs
    have hplaces : registry.places o = o.fields.map fun e => (.any, e.2) := by
      rw [Registry.places, hnone]
    have hoffers : ∀ e ∈ o.fields, (TypeTag.any, e.2) ∈ registry.places o := fun e he =>
      hplaces ▸ List.mem_map_of_mem he
    refine (ensures_keep hT o.fields fun e he => hfit e.1 .any e.2 fun id outer h =>
      ⟨_, hoffers e he, h⟩).map hT ?_
    rintro S fields ⟨rfl, hfields⟩
    refine ⟨by rw [hs, nodeImage], fun s hs' => ?_, ?_⟩
    · rw [hnone] at hs'
      cases hs'
    · rintro id outer ⟨w, hw, hexposes⟩
      rw [hplaces] at hw
      obtain ⟨e, he, rfl⟩ := List.mem_map.mp hw
      exact hfields e he id outer hexposes
  · have hschema := type?_of_schemaFor? hs
    refine (ensures_fill hT schema.fields o.fields fun x hx => hfit _ x.1.tag x.2 fun id outer h =>
      ⟨(x.1.tag, image registry options x.1.tag x.2), ?_, h.image⟩).map hT ?_
    · rw [nodeImage, places_filled hschema, ← List.map_uncurry_zip_eq_zipWith]
      exact List.mem_map_of_mem hx
    rintro S fields ⟨rfl, hfields⟩
    refine ⟨by rw [hs, nodeImage], fun s hs' => ?_, ?_⟩
    · rw [hschema] at hs'
      cases hs'
      exact hfields.mono fun _ _ _ => trivial
    · rintro id outer ⟨w, hw, hexposes⟩
      rw [Registry.places, hschema] at hw
      exact exposes_of_fieldsConform hfields w hw id outer hexposes

/-- What a projection does on the way from `p` to `q`, when it is asked to fit the objects in `P`:
those that it meets, which are those that these lead to, have become what fitting makes of them, and
all others are as they were. -/
structure Rewrites (registry : Registry) (options : DecodeOptions)
    (P : Nat → Option String → Prop) (p q : Progress) : Prop where
  size : q.graph.size = p.graph.size
  met : p.visited ⊆ q.visited
  kept : ∀ id, id ∈ p.visited ∨ id ∉ q.visited → q.graph.get? id = p.graph.get? id
  became : ∀ S : Nat → Prop, (∀ id ∈ q.visited, S id) → ∀ id ∈ q.visited, id ∉ p.visited →
    ∃ o o' declared, p.graph.get? id = some o ∧ q.graph.get? id = some o' ∧
      registry.Leads q.graph (fun i => i ∈ q.visited ∧ i ∉ p.visited) P id declared ∧
      Became registry options S declared o o'

lemma rewrites_passage : Passage (Rewrites registry options P) where
  refl p := ⟨rfl, List.Subset.refl _, fun _ _ => rfl, fun _ _ id hid hnew => absurd hid hnew⟩
  trans p q r hpq hqr := by
    refine ⟨hqr.size.trans hpq.size, List.Subset.trans hpq.met hqr.met, fun id hid => ?_, ?_⟩
    · have hq : id ∈ q.visited ∨ id ∉ r.visited := hid.imp_left fun h => hpq.met h
      have hp : id ∈ p.visited ∨ id ∉ q.visited := hid.imp_right fun h hq => h (hqr.met hq)
      rw [hqr.kept id hq, hpq.kept id hp]
    · intro S hS id hid hnew
      by_cases hq : id ∈ q.visited
      · -- met on the first way, and left alone on the second
        obtain ⟨o, o', declared, ho, ho', hleads, h⟩ :=
          hpq.became S (fun i hi => hS i (hqr.met hi)) id hq hnew
        refine ⟨o, o', declared, ho, (hqr.kept id (Or.inl hq)).trans ho', ?_, h⟩
        exact hleads.mono (fun i hi => ⟨hqr.met hi.1, hi.2⟩) fun i hi => hqr.kept i (Or.inl hi.1)
      · obtain ⟨o, o', declared, ho, ho', hleads, h⟩ := hqr.became S hS id hid hq
        refine ⟨o, o', declared, (hpq.kept id (Or.inr hq)).symm.trans ho, ho', ?_, h⟩
        exact hleads.mono (fun i hi => ⟨hi.1, fun hp => hi.2 (hpq.met hp)⟩) fun _ _ => rfl
  met _ _ h := h.met

lemma ensures_rewrite {fit : String → TypeTag → Value → Step Value}
    (hfit : ∀ Q, FitsImages registry options (Rewrites registry options Q) Q fit) {id : Nat}
    {declared : Option String} (hP : P id declared) :
    Ensures (Rewrites registry options P) (meet (rewrite registry fit) id declared)
      fun S _ => S id := by
  intro p a q hrun
  by_cases hid : id ∈ p.visited
  · rw [run_meet_of_mem hid] at hrun
    cases hrun
    exact ⟨rewrites_passage.refl p, fun S hS => hS id hid⟩
  rw [run_meet_of_not_mem hid] at hrun
  rcases ho : p.graph.get? id with _ | o
  · rw [run_rewrite_of_none (p := { p with visited := id :: p.visited }) ho] at hrun
    cases hrun
  rw [run_rewrite (p := { p with visited := id :: p.visited }) ho] at hrun
  obtain ⟨o', t, hnode, hput⟩ := run_bind_eq_ok.mp hrun
  cases hput
  obtain ⟨hpt, hbecame⟩ := ensures_node rewrites_passage (hfit _) _ o' t hnode
  have hidt : id ∈ t.visited := hpt.met List.mem_cons_self
  -- while its fields were fitted the object was met, and so left alone
  have ho' : (t.graph.modify id fun _ => o').get? id = some o' := by
    rw [Graph.get?_modify_self, hpt.kept id (Or.inl List.mem_cons_self), ho, Option.map_some]
  refine ⟨⟨?_, ?_, ?_, ?_⟩, fun S hS => hS id hidt⟩
  · exact (Graph.size_modify _ _ _).trans hpt.size
  · exact List.Subset.trans (List.subset_cons_self _ _) hpt.met
  · intro i hi
    have hne : i ≠ id := by
      rintro rfl
      exact hi.elim hid fun h => h hidt
    rw [Graph.get?_modify_of_ne _ hne]
    exact hpt.kept i (hi.imp_left (List.mem_cons_of_mem id))
  · intro S hS i hi hnew
    by_cases hii : i = id
    · subst hii
      exact ⟨o, o', declared, ho, ho', .given hP, hbecame S hS⟩
    · have hnew' : i ∉ id :: p.visited := List.not_mem_cons_of_ne_of_not_mem hii hnew
      obtain ⟨x, x', outer, hx, hx', hleads, h⟩ := hpt.became S hS i hi hnew'
      refine ⟨x, x', outer, hx, ?_, ?_, h⟩
      · rw [Graph.get?_modify_of_ne _ hii]
        exact hx'
      · -- what the fields of the object lead to, the object leads to
        have hleads' : registry.Leads (t.graph.modify id fun _ => o')
            (fun i => i ∈ t.visited ∧ i ∉ p.visited) _ i outer :=
          hleads.mono (fun j hj => ⟨hj.1, List.not_mem_of_not_mem_cons hj.2⟩) fun j hj =>
            Graph.get?_modify_of_ne _ (List.ne_of_not_mem_cons hj.2) _
        refine hleads'.trans fun j outer' hj => ?_
        obtain ⟨w, hw, hexposes⟩ := hj
        have himage := (hbecame (fun _ => True) fun _ _ => trivial).image
        rw [← himage] at hw
        exact .field (.given hP) ⟨hidt, hid⟩ ho' hw hexposes

lemma ensures_object (unmet : Nat) {id : Nat} {declared : Option String} (hP : P id declared) :
    Ensures (Rewrites registry options P) (object registry options unmet id declared)
      fun S _ => S id := by
  induction unmet generalizing P id declared with
  | zero =>
    intro p a q hrun
    unfold object at hrun
    by_cases hid : id ∈ p.visited
    · rw [run_meet_of_mem hid] at hrun
      cases hrun
      exact ⟨rewrites_passage.refl p, fun S hS => hS id hid⟩
    · rw [run_meet_of_not_mem hid] at hrun
      cases hrun
  | succ unmet ih =>
    unfold object
    refine ensures_rewrite (fun Q path tag v hQ => ?_) hP
    exact ensures_value rewrites_passage (fun _ _ h => ih h) path hQ

end Projection

end RemoteCall
