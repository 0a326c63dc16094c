/-
# Objects with several references

An object is fitted once, at the first reference that leads to it.  If its own type is declared,
that is what it is fitted to, whatever the references say.  Otherwise it is fitted to the type that
this one reference declares, and left as it was sent where the reference declares none; other
references have no say in it, so a reference behind the first may lead to an object that lacks the
mandatory fields of the type which it declares.
-/
import RemoteCall.Proofs.Projection.Faithful

namespace RemoteCall

open Projection

/-- Declared types lead from the arguments for some parameters to an object, and declare a type for
it in the reference by which they do: in an argument, in a field of an object to which they lead, or
in an item or entry of a collection that is declared as such. -/
def Arguments.LeadTo (registry : Registry) (params : List FieldDecl) (a : Arguments) (id : Nat)
    (declared : Option String) : Prop :=
  registry.Leads a.graph (fun _ => True) (Offered params (a.values.map Prod.snd)) id declared

namespace Projection

variable {registry : Registry} {options : DecodeOptions}

/-- Parameters expose in what they are filled with what they expose in what they take. -/
lemma Offered.filled {ds : List FieldDecl} {vs : List Value} {id : Nat} {declared : Option String}
    (h : Offered ds vs id declared) :
    Offered ds ((filled registry options ds vs).map Prod.snd) id declared := by
  obtain ⟨x, hx, hexposes⟩ := h
  refine ⟨(x.1, image registry options x.1.tag x.2), ?_, hexposes.image⟩
  clear hexposes
  induction ds generalizing vs with
  | nil => simp at hx
  | cons d ds ih =>
    cases vs with
    | nil => simp at hx
    | cons v vs =>
      simp only [List.zip_cons_cons, List.mem_cons] at hx
      rcases hx with rfl | hx
      · exact List.mem_cons_self
      · exact List.mem_cons_of_mem _ (ih hx)

/-- All objects that parameters expose in values are in a set. -/
lemma Offered.mem {S : Nat → Prop} {ds : List FieldDecl} {values : Named Value}
    (h : FieldsConform (ExposesIn S) ds values) {id : Nat} {declared : Option String}
    (hid : Offered ds (values.map Prod.snd) id declared) : S id := by
  obtain ⟨x, hx, hexposes⟩ := hid
  induction h with
  | nil => simp at hx
  | cons hd _ ih =>
    simp only [List.map_cons, List.zip_cons_cons, List.mem_cons] at hx
    rcases hx with rfl | hx
    · exact hd.2.2 id declared hexposes
    · exact ih hx

/-- What an object becomes under the type that a reference declares: its own declared type decides,
and where there is none the declared type of the reference. -/
lemma Became.typed {S : Nat → Prop} {declared : Option String} {o o' : Node}
    (h : Became registry options S declared o o') :
    (∀ t, registry.type? o.typeName = some t →
        o'.typeName = t.name ∧ FieldsConform (fun _ _ => True) t.fields o'.fields) ∧
      (registry.type? o.typeName = none →
        match declared.bind registry.type? with
        | some t => o'.typeName = t.name ∧ FieldsConform (fun _ _ => True) t.fields o'.fields
        | none => o' = o) := by
  have hfitted : ∀ t, schemaFor? registry o.typeName declared = some t →
      o'.typeName = t.name ∧ FieldsConform (fun _ _ => True) t.fields o'.fields := by
    intro t ht
    have hname : o'.typeName = t.name := by rw [h.image, ht, nodeImage]
    exact ⟨hname, h.declares t (hname ▸ type?_of_schemaFor? ht)⟩
  constructor
  · intro t ht
    exact hfitted t (by simp only [schemaFor?, ht])
  · intro hnone
    have hschema : schemaFor? registry o.typeName declared = declared.bind registry.type? := by
      simp only [schemaFor?, hnone]
    split
    · next t ht => exact hfitted t (hschema.trans ht)
    · next ht => rw [h.image, hschema, ht, nodeImage]

end Projection

variable {registry : Registry} {options : DecodeOptions}

/-- **The type that an object is fitted to**, when one of the references to it declares a type: its
own type, if that is declared.  Otherwise one of the references to it decides, and where all of them
declare the same type, that is the one.  In each case the object has exactly the fields of the type
that it is fitted to, with all mandatory ones. -/
theorem typed_by_one_reference {params : List FieldDecl} {sent a : Arguments}
    (h : Projection.bind registry options params sent = .ok a) {declared : String} {s : TypeSchema}
    (hs : registry.type? declared = some s) {id : Nat}
    (hid : a.LeadTo registry params id (some declared)) :
    ∃ o o', sent.graph.get? id = some o ∧ a.graph.get? id = some o' ∧
      (∀ t, registry.type? o.typeName = some t →
        o'.typeName = t.name ∧ FieldsConform (fun _ _ => True) t.fields o'.fields) ∧
      (registry.type? o.typeName = none →
        (∃ outer, a.LeadTo registry params id outer ∧
          match outer.bind registry.type? with
          | some t => o'.typeName = t.name ∧ FieldsConform (fun _ _ => True) t.fields o'.fields
          | none => o' = o) ∧
        ((∀ outer, a.LeadTo registry params id outer → outer = some declared) →
          o'.typeName = declared ∧ FieldsConform (fun _ _ => True) s.fields o'.fields)) := by
  obtain ⟨q, -, hgraph, hrewrites, hvalues, hexposes⟩ := exists_run_of_bind h
  rw [Arguments.LeadTo, hgraph] at hid
  have hmet : id ∈ q.visited := hrewrites.met_of_leads (fun _ _ hi => Offered.mem hexposes hi) hid
  obtain ⟨o, o', outer, ho, ho', hleads, hbecame⟩ :=
    hrewrites.leads_of_met (fun _ _ hi => hi.filled) hmet
  have hlead : a.LeadTo registry params id outer := by
    rw [Arguments.LeadTo, hgraph, hvalues]
    exact hleads
  obtain ⟨hown, hreference⟩ := hbecame.typed
  refine ⟨o, o', ho, hgraph ▸ ho', hown, fun hnone => ⟨⟨outer, hlead, hreference hnone⟩, ?_⟩⟩
  intro hall
  have houter := hreference hnone
  simp only [hall outer hlead, Option.bind_some, hs] at houter
  rwa [Registry.name_of_type? hs] at houter

/-- An object of a type that is not declared, referred to by a parameter, by an item of a list and
by its own field, which all declare the same type. -/
theorem typed_by_one_reference_ring :
    let s : TypeSchema := ⟨"Node", [⟨"next", .object "Node", true⟩, ⟨"size", .int, false⟩]⟩
    let registry : Registry := { types := [s] }
    let params : List FieldDecl :=
      [⟨"nodes", .list (.object "Node"), true⟩, ⟨"it", .object "Node", true⟩]
    let o : Node := ⟨"Item", [("note", .str "x"), ("next", .object 0)]⟩
    let o' : Node := ⟨"Node", [("next", .object 0), ("size", .null)]⟩
    let values : Named Value := [("nodes", .list [.object 0]), ("it", .object 0)]
    let a : Arguments := ⟨⟨#[o']⟩, values⟩
    Projection.bind registry {} params ⟨⟨#[o]⟩, values⟩ = .ok a ∧
      registry.type? "Node" = some s ∧ a.LeadTo registry params 0 (some "Node") ∧
      registry.type? o.typeName = none ∧
      (∀ outer, a.LeadTo registry params 0 outer → outer = some "Node") ∧
      o'.typeName = "Node" ∧ FieldsConform (fun _ _ => True) s.fields o'.fields := by
  intro s registry params o o' values a
  have hbind : Projection.bind registry {} params ⟨⟨#[o]⟩, values⟩ = .ok a := rfl
  have hs : registry.type? "Node" = some s := rfl
  have hid : a.LeadTo registry params 0 (some "Node") :=
    .given ⟨_, List.mem_cons_of_mem _ List.mem_cons_self, .object "Node"⟩
  have hall : ∀ outer, a.LeadTo registry params 0 outer → outer = some "Node" := by
    intro outer houter
    cases houter with
    | given hoffered =>
      obtain ⟨x, hx, hexposes⟩ := hoffered
      rcases List.mem_cons.mp hx with rfl | hx
      · cases hexposes with
        | list hv hexposes =>
          rw [List.mem_singleton.mp hv] at hexposes
          cases hexposes
          rfl
      · rw [List.mem_singleton.mp hx] at hexposes
        cases hexposes
        rfl
    | @field i _ _ _ o'' w _ _ ho hw hexposes =>
      rcases i with _ | i <;> cases ho
      rcases List.mem_cons.mp hw with rfl | hw
      · cases hexposes
        rfl
      · rw [List.mem_singleton.mp hw] at hexposes
        cases hexposes
  obtain ⟨x, x', hx, hx', -, hreference⟩ := typed_by_one_reference hbind hs hid
  cases hx
  cases hx'
  exact ⟨hbind, hs, hid, rfl, hall, (hreference rfl).2 hall⟩

/-- **A reference behind the first has no say**: the second parameter declares a type with a
mandatory field, and gets an object that lacks it, because the first parameter refers to the same
object and takes any.  With the parameters in the other order the arguments are refused. -/
theorem unchecked_behind_alias :
    let registry : Registry := { types := [⟨"Point", [⟨"x", .int, true⟩]⟩] }
    let first : FieldDecl := ⟨"a", .any, false⟩
    let second : FieldDecl := ⟨"b", .object "Point", true⟩
    let a : Arguments := ⟨⟨#[⟨"Unknown", []⟩]⟩, [("a", .object 0), ("b", .object 0)]⟩
    Projection.bind registry {} [first, second] a = .ok a ∧
      a.LeadTo registry [first, second] 0 (some "Point") ∧
      a.graph.get? 0 = some ⟨"Unknown", []⟩ ∧ registry.type? "Unknown" = none ∧
      Projection.bind registry {} [second, first] a = .error (.missingField "Point.x") :=
  ⟨rfl, .given ⟨_, List.mem_cons_of_mem _ List.mem_cons_self, .object "Point"⟩, rfl, rfl, rfl⟩

end RemoteCall
