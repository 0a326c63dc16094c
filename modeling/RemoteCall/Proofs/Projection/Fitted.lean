/-
# What projection gives conforms to the local declarations

Projection rewrites the objects of a graph in place, each at the first reference that leads to it,
while objects further out are still being fitted and the graph may lead back to them.  What carries
the proof is therefore not that an object conforms once it has been visited, which is false while
its own fields are under way, but a statement about every set of objects under way at once: a step
leaves fitted whatever was fitted, and fits all that it newly meets.
-/
import RemoteCall.Projection
import RemoteCall.Proofs.Objects
import RemoteCall.Proofs.Projection.Conformance
import RemoteCall.Proofs.Steps

namespace RemoteCall

namespace Projection

/-! ## The local part of conformance -/

/-- A value has the declared kind down to the objects that it refers to, which are all in `S`. -/
inductive Fits (registry : Registry) (S : Nat → Prop) : TypeTag → Value → Prop
  | null (tag : TypeTag) : Fits registry S tag .null
  | any (v : Value) : Fits registry S .any v
  | bool (b : Bool) : Fits registry S .bool (.bool b)
  | int (i : Int64) : Fits registry S .int (.int i)
  | float (bits : UInt64) : Fits registry S .float (.float bits)
  | str (s : String) : Fits registry S .str (.str s)
  | bytes (b : List UInt8) : Fits registry S .bytes (.bytes b)
  | enum {enumName c : String} :
      registry.Knows enumName c → Fits registry S (.enum enumName) (.enum c)
  | list {element : TypeTag} {vs : List Value} :
      (∀ v ∈ vs, Fits registry S element v) → Fits registry S (.list element) (.list vs)
  | set {element : TypeTag} {vs : List Value} :
      (∀ v ∈ vs, Fits registry S element v) → Fits registry S (.set element) (.set vs)
  | map {keyTag valueTag : TypeTag} {es : List (Value × Option Value)} :
      (∀ e ∈ es, Fits registry S keyTag e.1) →
      (∀ e ∈ es, ∀ v, e.2 = some v → Fits registry S valueTag v) →
      Fits registry S (.map keyTag valueTag) (.map es)
  | object (declared : String) {id : Nat} : S id → Fits registry S (.object declared) (.object id)

variable {registry : Registry} {options : DecodeOptions}

lemma Fits.mono {S T : Nat → Prop} (hST : ∀ id, S id → T id) {tag : TypeTag} {v : Value}
    (h : Fits registry S tag v) : Fits registry T tag v := by
  induction h with
  | null tag => exact .null tag
  | any v => exact .any v
  | bool b => exact .bool b
  | int i => exact .int i
  | float bits => exact .float bits
  | str s => exact .str s
  | bytes b => exact .bytes b
  | enum hc => exact .enum hc
  | list _ ih => exact .list ih
  | set _ ih => exact .set ih
  | map _ _ ihk ihv => exact .map ihk ihv
  | object declared hid => exact .object declared (hST _ hid)

/-- If the objects of a set all have the fields of their types, up to references into the set, then
what fits up to such references conforms. -/
lemma Fits.conforms {g : Graph} {S : Nat → Prop}
    (hS : ∀ id, S id → ∃ o, g.get? id = some o ∧ registry.Declares (Fits registry S) o)
    {tag : TypeTag} {v : Value} (h : Fits registry S tag v) : registry.Conforms g tag v := by
  -- up to references into the set, fitting is a relation as conformance asks for
  refine ⟨Fits registry S, ?_, h⟩
  intro tag v hv
  cases hv with
  | enum hc => exact hc
  | list hvs => exact hvs
  | set hvs => exact hvs
  | map hks hvs => exact fun e he => ⟨hks e he, hvs e he⟩
  | object declared hid => exact hS _ hid
  | any v => cases v <;> exact trivial
  | _ => exact trivial

/-! ## Objects that have been fitted -/

/-- An object of the graph has the fields of its type, up to references to objects met so far. -/
def Fitted (registry : Registry) (p : Progress) (id : Nat) : Prop :=
  ∃ o, p.graph.get? id = some o ∧ registry.Declares (Fits registry (· ∈ p.visited)) o

/-- Every object met so far has been fitted, but for those under way. -/
def Settled (registry : Registry) (underway : List Nat) (p : Progress) : Prop :=
  ∀ id ∈ p.visited, id ∉ underway → Fitted registry p id

/-- What a projection may do to its state on the way from `p` to `q`: it adds no objects, forgets
none that it met, and ends with every object fitted if it began so, whatever else is under way. -/
structure Advances (registry : Registry) (p q : Progress) : Prop where
  size : q.graph.size = p.graph.size
  met : p.visited ⊆ q.visited
  settled : ∀ underway, Settled registry underway p → Settled registry underway q

lemma Advances.refl (p : Progress) : Advances registry p p where
  size := rfl
  met := List.Subset.refl _
  settled := fun _ h => h

lemma Advances.trans {p q r : Progress} (hpq : Advances registry p q)
    (hqr : Advances registry q r) : Advances registry p r where
  size := hqr.size.trans hpq.size
  met := List.Subset.trans hpq.met hqr.met
  settled := fun underway h => hqr.settled underway (hpq.settled underway h)

/-! ## What steps give -/

/-- A step that succeeds only with a result as `post` says, for every set of objects that holds all
those met by then. -/
def Gives {α : Type} (registry : Registry) (m : Step α) (post : (Nat → Prop) → α → Prop) : Prop :=
  ∀ p a q, m.run p = .ok (a, q) →
    Advances registry p q ∧ ∀ S : Nat → Prop, (∀ id ∈ q.visited, S id) → post S a

section Gives

variable {α β : Type} {m : Step α} {k : α → Step β} {post : (Nat → Prop) → α → Prop}
  {post' : (Nat → Prop) → β → Prop}

lemma gives_pure {a : α} (h : ∀ S, post S a) : Gives registry (pure a) post := by
  intro p a' q hrun
  cases run_pure_eq_ok.mp hrun
  exact ⟨.refl p, fun S _ => h S⟩

lemma gives_throw (e : Misfit) : Gives registry (throw e : Step α) post := by
  intro p a q hrun
  cases hrun

/-- The rest of a sequence may use of the first result what its step says, as the set of objects met
only grows. -/
lemma Gives.bind (hm : Gives registry m post)
    (hk : ∀ a, Gives registry (k a) fun S b => post S a → post' S b) :
    Gives registry (m >>= k) post' := by
  intro p b q hrun
  obtain ⟨a, t, ha, hb⟩ := run_bind_eq_ok.mp hrun
  obtain ⟨hpt, hpost⟩ := hm p a t ha
  obtain ⟨htq, hpost'⟩ := hk a t b q hb
  exact ⟨hpt.trans htq, fun S hS => hpost' S hS (hpost S fun id hid => hS id (htq.met hid))⟩

lemma Gives.mono {post₂ : (Nat → Prop) → α → Prop} (hm : Gives registry m post)
    (h : ∀ S a, post S a → post₂ S a) : Gives registry m post₂ := by
  intro p a q hrun
  obtain ⟨hpq, hpost⟩ := hm p a q hrun
  exact ⟨hpq, fun S hS => h S a (hpost S hS)⟩

lemma gives_lift {x : Except Misfit α} (h : ∀ a, x = .ok a → ∀ S, post S a) :
    Gives registry (StateT.lift x : Step α) post := by
  intro p a q hrun
  cases x with
  | error e => cases hrun
  | ok b =>
    cases hrun
    exact ⟨.refl p, fun S _ => h a rfl S⟩

end Gives

lemma knows_of_constant (hr : registry.HasSentinels) {enumName name c : String}
    (h : constant registry options enumName name = .ok c) : registry.Knows enumName c := by
  intro s hs
  simp only [constant, hs] at h
  split at h
  · next hc =>
    cases h
    exact hc
  · split at h
    · next hsentinel _ =>
      cases h
      exact hr.contains hs hsentinel
    · cases h

/-! ## Values -/

/-- A way to fit objects that meets the objects which it is asked to fit. -/
def Meets (registry : Registry) (object : Nat → Option String → Step Unit) : Prop :=
  ∀ id declared, Gives registry (object id declared) fun S _ => S id

lemma gives_items {object : Nat → Option String → Step Unit} {path : String} {element : TypeTag}
    (vs : List Value)
    (h : ∀ v ∈ vs, Gives registry (value registry options object path element v) fun S w =>
      Fits registry S element w ∧ w.isNull = v.isNull) :
    Gives registry (items registry options object path element vs) fun S ws =>
      ∀ w ∈ ws, Fits registry S element w := by
  induction vs with
  | nil =>
    unfold items
    exact gives_pure fun S w hw => absurd hw List.not_mem_nil
  | cons v rest ih =>
    obtain ⟨hv, hrest⟩ := List.forall_mem_cons.mp h
    unfold items
    refine hv.bind fun w => (ih hrest).bind fun ws => ?_
    exact gives_pure fun S hws hw => List.forall_mem_cons.mpr ⟨hw.1, hws⟩

lemma gives_entries {object : Nat → Option String → Step Unit} {path : String}
    {keyTag valueTag : TypeTag} (es : List (Value × Option Value))
    (h : ∀ v ∈ (Value.map es).parts, ∀ tag,
      Gives registry (value registry options object path tag v) fun S w =>
        Fits registry S tag w ∧ w.isNull = v.isNull) :
    Gives registry (entries registry options object path keyTag valueTag es) fun S fs =>
      ∀ e ∈ fs, Fits registry S keyTag e.1 ∧ ∀ v, e.2 = some v → Fits registry S valueTag v := by
  induction es with
  | nil =>
    unfold entries
    exact gives_pure fun S e he => absurd he List.not_mem_nil
  | cons e rest ih =>
    obtain ⟨k, v⟩ := e
    have hrest := ih fun w hw => h w (List.mem_append_right _ hw)
    have hk := h k List.mem_cons_self keyTag
    cases v with
    | none =>
      unfold entries
      refine hk.bind fun k' => hrest.bind fun fs => gives_pure fun S hfs hk => ?_
      exact List.forall_mem_cons.mpr ⟨⟨hk.1, fun v hv => nomatch hv⟩, hfs⟩
    | some v =>
      have hv := h v (List.mem_cons_of_mem _ List.mem_cons_self) valueTag
      unfold entries
      refine hk.bind fun k' => hv.bind fun v' => hrest.bind fun fs => gives_pure ?_
      intro S hfs hv hk
      refine List.forall_mem_cons.mpr ⟨⟨hk.1, ?_⟩, hfs⟩
      rintro w ⟨⟩
      exact hv.1

lemma gives_value (hr : registry.HasSentinels) {object : Nat → Option String → Step Unit}
    (ho : Meets registry object) (path : String) (tag : TypeTag) (v : Value) :
    Gives registry (value registry options object path tag v) fun S w =>
      Fits registry S tag w ∧ w.isNull = v.isNull := by
  -- on the parts of the value: a reference ends it, as fitting objects is given
  induction v using Value.parts_induction generalizing tag with
  | h v ih =>
  unfold value
  split
  case h_1 => exact gives_pure fun S => ⟨.null _, rfl⟩
  case h_2 id => exact (ho id none).bind fun _ => gives_pure fun S _ => ⟨.any _, rfl⟩
  case h_3 => exact gives_pure fun S => ⟨.any _, rfl⟩
  case h_4 => exact gives_pure fun S => ⟨.bool _, rfl⟩
  case h_5 => exact gives_pure fun S => ⟨.int _, rfl⟩
  case h_6 => exact gives_pure fun S => ⟨.float _, rfl⟩
  case h_7 => exact gives_pure fun S => ⟨.float _, rfl⟩
  case h_8 => exact gives_pure fun S => ⟨.str _, rfl⟩
  case h_9 => exact gives_pure fun S => ⟨.bytes _, rfl⟩
  case h_10 enumName name =>
    refine (gives_lift fun c hc S => knows_of_constant hr hc).bind fun c => ?_
    exact gives_pure fun S hc => ⟨.enum hc, rfl⟩
  case h_11 element vs =>
    refine (gives_items vs fun v hv => ih v hv element).bind fun ws => ?_
    exact gives_pure fun S hws => ⟨.list hws, rfl⟩
  case h_12 element vs =>
    refine (gives_items vs fun v hv => ih v hv element).bind fun ws => ?_
    exact gives_pure fun S hws => ⟨.set hws, rfl⟩
  case h_13 keyTag valueTag es =>
    refine (gives_entries es ih).bind fun fs => ?_
    exact gives_pure fun S hfs => ⟨.map (fun e he => (hfs e he).1) fun e he => (hfs e he).2, rfl⟩
  case h_14 declared id =>
    exact (ho id (some declared)).bind fun _ => gives_pure fun S hid => ⟨.object declared hid, rfl⟩
  case h_15 => exact gives_throw _

/-! ## Fields and objects -/

/-- A way to fit values to types, at a place. -/
def FitsAll (registry : Registry) (fit : String → TypeTag → Value → Step Value) : Prop :=
  ∀ path tag v, Gives registry (fit path tag v) fun S w =>
    Fits registry S tag w ∧ w.isNull = v.isNull

lemma gives_place {fit : FieldDecl → Value → Step Value} {missing : FieldDecl → Misfit}
    {d : FieldDecl} {found : Value}
    (hfit : Gives registry (fit d found) fun S w =>
      Fits registry S d.tag w ∧ w.isNull = found.isNull) :
    Gives registry (place fit missing d found) fun S w =>
      (d.mandatory = true → w.isNull = false) ∧ Fits registry S d.tag w := by
  unfold place
  split
  · split
    · exact gives_throw _
    · next hopt => exact gives_pure fun S => ⟨fun h => absurd h hopt, .null _⟩
  · next hfound =>
    have hfound := Bool.eq_false_of_not_eq_true hfound
    exact hfit.mono fun S w ⟨hw, hnull⟩ => ⟨fun _ => hnull.trans hfound, hw⟩

lemma gives_fill {fit : FieldDecl → Value → Step Value} {missing : FieldDecl → Misfit}
    (hfit : ∀ d v, Gives registry (fit d v) fun S w =>
      Fits registry S d.tag w ∧ w.isNull = v.isNull)
    (ds : List FieldDecl) (sent : Named Value) :
    Gives registry (fill fit missing ds sent) fun S fields =>
      FieldsConform (Fits registry S) ds fields := by
  induction ds generalizing sent with
  | nil => exact gives_pure fun S => .nil
  | cons d ds ih =>
    unfold fill
    refine (gives_place (hfit d _)).bind fun w => (ih _).bind fun rest => ?_
    exact gives_pure fun S hrest hw => .cons ⟨rfl, hw⟩ hrest

lemma gives_keep {fit : String → Value → Step Value}
    (hfit : ∀ name v, Gives registry (fit name v) fun _ _ => True) (fields : Named Value) :
    Gives registry (keep fit fields) fun _ _ => True := by
  induction fields with
  | nil => exact gives_pure fun S => trivial
  | cons e rest ih =>
    obtain ⟨name, v⟩ := e
    exact (hfit name v).bind fun w => ih.bind fun rest' => gives_pure fun S _ _ => trivial

lemma type?_of_schemaFor? {typeName : String} {declared : Option String} {s : TypeSchema}
    (h : schemaFor? registry typeName declared = some s) : registry.type? s.name = some s := by
  unfold schemaFor? at h
  split at h
  · next hs =>
    cases h
    rw [Registry.name_of_type? hs, hs]
  · obtain ⟨name, -, hs⟩ := Option.bind_eq_some_iff.mp h
    rw [Registry.name_of_type? hs, hs]

lemma type?_of_schemaFor?_none {typeName : String} {declared : Option String}
    (h : schemaFor? registry typeName declared = none) : registry.type? typeName = none := by
  unfold schemaFor? at h
  split at h
  · cases h
  · next hs => exact hs

lemma gives_node {fit : String → TypeTag → Value → Step Value} (hfit : FitsAll registry fit)
    (o : Node) (declared : Option String) :
    Gives registry (node fit o (schemaFor? registry o.typeName declared)) fun S o' =>
      registry.Declares (Fits registry S) o' := by
  rcases hs : schemaFor? registry o.typeName declared with _ | schema
  · refine (gives_keep (fun name v => (hfit name .any v).mono fun _ _ _ => trivial) _).bind ?_
    intro fields
    refine gives_pure fun S _ s hs' => ?_
    -- an object that is kept has no declaration, also not under the name that it keeps
    rw [type?_of_schemaFor?_none hs] at hs'
    cases hs'
  · refine (gives_fill (fun d v => hfit _ d.tag v) schema.fields o.fields).bind fun fields => ?_
    refine gives_pure fun S hfields s hs' => ?_
    rw [type?_of_schemaFor? hs] at hs'
    cases hs'
    exact hfields

lemma Fitted.mono {p q : Progress} {id : Nat} (hg : q.graph.get? id = p.graph.get? id)
    (hpq : p.visited ⊆ q.visited) (h : Fitted registry p id) : Fitted registry q id := by
  obtain ⟨o, ho, hd⟩ := h
  exact ⟨o, hg.trans ho, hd.mono fun tag v hv => hv.mono fun _ hid => hpq hid⟩

/-- What fitting an object has to do to the state after the object was marked as met. -/
def MeetsMarked (registry : Registry) (first : Nat → Option String → Step Unit) : Prop :=
  ∀ id declared p q,
    (first id declared).run { p with visited := id :: p.visited } = .ok ((), q) →
      Advances registry p q ∧ id ∈ q.visited

lemma meets_meet {first : Nat → Option String → Step Unit} (h : MeetsMarked registry first) :
    Meets registry (meet first) := by
  intro id declared p a q hrun
  obtain ⟨_, _, hget, hrun⟩ := run_bind_eq_ok.mp hrun
  cases hget
  split at hrun
  · next hid =>
    cases hrun
    exact ⟨.refl p, fun S hS => hS id (List.contains_iff_mem.mp hid)⟩
  · obtain ⟨_, _, hset, hrun⟩ := run_bind_eq_ok.mp hrun
    cases hset
    obtain ⟨hpq, hid⟩ := h id declared p q hrun
    exact ⟨hpq, fun S hS => hS id hid⟩

lemma meetsMarked_rewrite {fit : String → TypeTag → Value → Step Value}
    (hfit : FitsAll registry fit) : MeetsMarked registry (rewrite registry fit) := by
  intro id declared p q hrun
  obtain ⟨_, _, hget, hrun⟩ := run_bind_eq_ok.mp hrun
  cases hget
  dsimp only at hrun
  split at hrun
  · cases hrun
  next o ho =>
  obtain ⟨o', t, hnode, hmodify⟩ := run_bind_eq_ok.mp hrun
  cases hmodify
  obtain ⟨hpt, hdeclares⟩ := gives_node hfit o declared _ _ _ hnode
  have hid : id ∈ t.visited := hpt.met List.mem_cons_self
  refine ⟨⟨?_, ?_, ?_⟩, hid⟩
  · exact (Graph.size_modify _ _ _).trans hpt.size
  · exact List.Subset.trans (List.subset_cons_self _ _) hpt.met
  · intro underway hp i hi hout
    by_cases hii : i = id
    · -- its fields were fitted as of `t`, and putting them in place meets nothing new
      subst hii
      obtain ⟨x, hx⟩ := Graph.exists_get?_of_size_eq hpt.size ho
      refine ⟨o', ?_, hdeclares _ fun j hj => hj⟩
      rw [Graph.get?_modify_self, hx, Option.map_some]
    · -- while the object is fitted it is under way itself
      have ht : Settled registry (id :: underway) t := by
        apply hpt.settled
        intro j hj hout'
        have hj := (List.mem_cons.mp hj).resolve_left (List.ne_of_not_mem_cons hout')
        have hfitted := hp j hj (List.not_mem_of_not_mem_cons hout')
        exact Fitted.mono (p := p) rfl (List.subset_cons_self _ _) hfitted
      have hi' := ht i hi (List.not_mem_cons_of_ne_of_not_mem hii hout)
      exact hi'.mono (Graph.get?_modify_of_ne _ hii _) (List.Subset.refl _)

lemma meets_object (hr : registry.HasSentinels) (unmet : Nat) :
    Meets registry (object registry options unmet) := by
  induction unmet with
  | zero =>
    unfold object
    refine meets_meet fun id declared p q hrun => ?_
    cases hrun
  | succ unmet ih =>
    unfold object
    exact meets_meet (meetsMarked_rewrite fun path tag v => gives_value hr ih path tag v)

/-- The steps of a projection that starts with nothing met end with all that was met fitted. -/
lemma Gives.conforms {α : Type} {m : Step α} {post : (Nat → Prop) → α → Prop}
    (hm : Gives registry m post) {g : Graph} {a : α} {q : Progress}
    (hrun : m.run { graph := g } = .ok (a, q)) :
    post (· ∈ q.visited) a ∧
      ∀ tag v, Fits registry (· ∈ q.visited) tag v → registry.Conforms q.graph tag v := by
  obtain ⟨hpq, hpost⟩ := hm _ a q hrun
  have hq : Settled registry [] q := hpq.settled [] fun id hid => absurd hid List.not_mem_nil
  refine ⟨hpost _ fun _ hid => hid, fun tag v hv => ?_⟩
  exact hv.conforms fun id hid => hq id hid List.not_mem_nil

/-- **What projection gives conforms to the local declarations**: a value that was fitted to a type
conforms to it over the graph as it has become, and arguments that were fitted to parameters are
exactly the declared ones, each conforming to its type. -/
theorem conforms_of_projected (hr : registry.HasSentinels) :
    (∀ (g : Graph) (v : Value) (tag : TypeTag) (path : String) (r : Returned),
      project registry options g v tag path = .ok r → registry.Conforms r.graph tag r.value) ∧
    ∀ (params : List FieldDecl) (sent args : Arguments),
      bind registry options params sent = .ok args →
        FieldsConform (registry.Conforms args.graph) params args.values := by
  constructor
  · intro g v tag path r h
    obtain ⟨⟨w, q⟩, hrun, hr'⟩ := bind_eq_ok.mp h
    cases hr'
    obtain ⟨⟨hw, -⟩, hconf⟩ := (gives_value hr (meets_object hr _) path tag v).conforms hrun
    exact hconf tag w hw
  · intro params sent args h
    obtain ⟨⟨values, q⟩, hrun, hargs⟩ := bind_eq_ok.mp h
    cases hargs
    have ho : Meets registry (object registry options sent.graph.size) := meets_object hr _
    obtain ⟨hvalues, hconf⟩ :=
      (gives_fill (fun d v => gives_value hr ho d.name d.tag v) params sent.values).conforms hrun
    exact hvalues.mono hconf

/-- Two objects that refer to each other, one of a type that is not declared under the name it was
sent, and a constant that is not known. -/
theorem conforms_of_projected_ring :
    let registry : Registry :=
      { types := [⟨"Node", [⟨"next", .object "Node", true⟩, ⟨"colour", .enum "Colour", false⟩]⟩]
        enums := [(EnumSchema.mk "Colour" ["RED"] none).withSentinel "UNKNOWN"] }
    let sent : Graph := ⟨#[
      ⟨"Node", [("colour", .enum "BLUE"), ("next", .object 1), ("size", .int 1)]⟩,
      ⟨"Item", [("next", .object 0)]⟩]⟩
    let fitted : Graph := ⟨#[
      ⟨"Node", [("next", .object 1), ("colour", .enum "UNKNOWN")]⟩,
      ⟨"Node", [("next", .object 0), ("colour", .null)]⟩]⟩
    registry.HasSentinels ∧
      project registry {} sent (.object 0) (.object "Node") "it" = .ok ⟨fitted, .object 0⟩ ∧
      registry.Conforms fitted (.object "Node") (.object 0) := by
  intro registry sent fitted
  have hr : registry.HasSentinels := by
    intro s hs
    rw [List.mem_singleton.mp hs]
    exact EnumSchema.hasSentinel_withSentinel _ _
  have hproject : project registry {} sent (.object 0) (.object "Node") "it" =
      .ok ⟨fitted, .object 0⟩ := rfl
  exact ⟨hr, hproject, (conforms_of_projected hr).1 _ _ _ _ _ hproject⟩

end Projection

end RemoteCall
