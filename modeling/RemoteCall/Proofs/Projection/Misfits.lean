/-
# What a misfit says

The text for a value that does not fit names the place where it was found and the type that is
declared there.  Both come from the declarations.  The one text of the sender in it is the constant
that an enumeration lacks.  References that lead out of the graph are not met when the graph holds
all objects that it mentions.
-/
import RemoteCall.Proofs.Projection.Drawn
import RemoteCall.Proofs.Projection.Lockstep
import RemoteCall.Proofs.Wire.Refusals

namespace RemoteCall

/-- The place and the type of every declared field have at most `b` bytes. -/
def Registry.Labelled (b : Nat) (r : Registry) : Prop :=
  ∀ s ∈ r.types, ∀ d ∈ s.fields,
    (Projection.fieldPath s d).utf8ByteSize + d.tag.text.utf8ByteSize ≤ b

/-- A value mentions only objects among the first `size`, and its constants have at most `n`
bytes. -/
structure Value.Sound (size n : Nat) (v : Value) : Prop where
  within : v.Within size
  modest : v.Modest n

lemma Value.Sound.part {size n : Nat} {v w : Value} (h : v.Sound size n) (hw : w ∈ v.parts) :
    w.Sound size n :=
  ⟨fun id hid => h.within id (.part hw hid), h.modest.part hw⟩

lemma Value.sound_null (size n : Nat) : Value.null.Sound size n where
  within := Value.within_scalar rfl fun id => by simp
  modest := Value.modest_of_parts (fun c => by simp) fun w hw => absurd hw List.not_mem_nil

namespace Projection

/-- The texts of the declarations in a misfit have at most `b` bytes, and that of the sender at
most `n`; and it is none that names a missing object. -/
def Misfit.Within (b n : Nat) : Misfit → Prop
  | missingArgument name => name.utf8ByteSize ≤ b
  | missingField path => path.utf8ByteSize ≤ b
  | wrongKind path tag found =>
    path.utf8ByteSize + tag.text.utf8ByteSize ≤ b ∧ found.utf8ByteSize ≤ 6
  | unknownConstant enumName constant => enumName.utf8ByteSize ≤ b ∧ constant.utf8ByteSize ≤ n
  | missingObject _ => False

/-- The place and the declared type of a field have at most `b` bytes; nothing is said about a field
that may hold any value. -/
def Labelled (b : Nat) (path : String) (tag : TypeTag) : Prop :=
  tag = .any ∨ path.utf8ByteSize + tag.text.utf8ByteSize ≤ b

/-- A type whose text is part of the text of the declared type may stand in its place. -/
lemma Labelled.inner {b : Nat} {path : String} {tag inner : TypeTag} (h : Labelled b path tag)
    (hany : tag ≠ .any) (hle : inner.text.utf8ByteSize ≤ tag.text.utf8ByteSize) :
    Labelled b path inner :=
  Or.inr ((Nat.add_le_add_left hle _).trans (h.resolve_left hany))

lemma Misfit.utf8ByteSize_fault {b n : Nat} {m : Misfit} (h : m.Within b n) :
    m.toFailure.toFault.message.utf8ByteSize ≤ b + 6 * n + 48 := by
  cases m with
  | missingArgument name =>
    have hname : name.utf8ByteSize ≤ b := h
    show ("mandatory argument '" ++ name ++ "' is missing").utf8ByteSize ≤ b + 6 * n + 48
    have h1 : ("mandatory argument '" : String).utf8ByteSize = 20 := rfl
    have h2 : ("' is missing" : String).utf8ByteSize = 12 := rfl
    simp only [String.utf8ByteSize_append]
    omega
  | missingField path =>
    have hpath : path.utf8ByteSize ≤ b := h
    show ("mandatory field '" ++ path ++ "' is missing").utf8ByteSize ≤ b + 6 * n + 48
    have h1 : ("mandatory field '" : String).utf8ByteSize = 17 := rfl
    have h2 : ("' is missing" : String).utf8ByteSize = 12 := rfl
    simp only [String.utf8ByteSize_append]
    omega
  | wrongKind path tag found =>
    obtain ⟨hlabel, hfound⟩ := h
    show ("'" ++ path ++ "': expected " ++ tag.text ++ ", found " ++ found).utf8ByteSize ≤
      b + 6 * n + 48
    have h1 : ("'" : String).utf8ByteSize = 1 := rfl
    have h2 : ("': expected " : String).utf8ByteSize = 12 := rfl
    have h3 : (", found " : String).utf8ByteSize = 8 := rfl
    simp only [String.utf8ByteSize_append]
    omega
  | unknownConstant enumName constant =>
    obtain ⟨hname, hconstant⟩ := h
    have hquoted := Text.utf8ByteSize_quoted constant
    show ("Enum deserialisation failed: " ++ enumName ++ " has no constant " ++
      Text.quoted constant).utf8ByteSize ≤ b + 6 * n + 48
    have h1 : ("Enum deserialisation failed: " : String).utf8ByteSize = 29 := rfl
    have h2 : (" has no constant " : String).utf8ByteSize = 17 := rfl
    simp only [String.utf8ByteSize_append]
    omega
  | missingObject id => exact h.elim

/-! ## Values -/

section Values

variable {registry : Registry} {options : DecodeOptions} {I : Progress → Prop} {size b n : Nat}
  {object : Nat → Option String → Step Unit}

/-- A step that keeps the invariant `I` or ends in a misfit with short texts. -/
abbrev Tries {α : Type} (I : Progress → Prop) (b n : Nat) (m : Step α) : Prop :=
  Settles I (Misfit.Within b n) m fun _ => True

lemma tries_items {path : String} {element : TypeTag} {vs : List Value}
    (h : ∀ v ∈ vs, Tries I b n (value registry options object path element v)) :
    Tries I b n (items registry options object path element vs) := by
  induction vs with
  | nil =>
    unfold items
    exact settles_pure trivial
  | cons v rest ih =>
    obtain ⟨hv, hrest⟩ := List.forall_mem_cons.mp h
    unfold items
    exact hv.bind fun _ _ => (ih hrest).map fun _ _ => trivial

lemma tries_entries {path : String} {keyTag valueTag : TypeTag}
    {es : List (Value × Option Value)}
    (h : ∀ e ∈ es, Tries I b n (value registry options object path keyTag e.1) ∧
      ∀ v, e.2 = some v → Tries I b n (value registry options object path valueTag v)) :
    Tries I b n (entries registry options object path keyTag valueTag es) := by
  induction es with
  | nil =>
    unfold entries
    exact settles_pure trivial
  | cons e rest ih =>
    obtain ⟨⟨hk, hv⟩, hrest⟩ := List.forall_mem_cons.mp h
    have hrest := ih hrest
    obtain ⟨k, v⟩ := e
    cases v with
    | none =>
      unfold entries
      exact hk.bind fun _ _ => hrest.map fun _ _ => trivial
    | some v =>
      unfold entries
      exact hk.bind fun _ _ => (hv v rfl).bind fun _ _ => hrest.map fun _ _ => trivial

lemma tries_constant {path enumName c : String}
    (hlabel : Labelled b path (.enum enumName)) (hc : c.utf8ByteSize ≤ n) :
    Tries I b n (StateT.lift (constant registry options enumName c) : Step String) := by
  intro p hp
  rcases hconstant : constant registry options enumName c with e | c'
  · constructor
    · intro a q hrun
      cases hrun
    · intro e' hrun
      cases hrun
      -- the one cause is that the enumeration lacks the constant
      have he : e = .unknownConstant enumName c := by
        unfold constant at hconstant
        split at hconstant
        · cases hconstant
        · split at hconstant
          · cases hconstant
          · split at hconstant <;> cases hconstant
            rfl
      subst he
      refine ⟨?_, hc⟩
      rcases hlabel with h | h
      · cases h
      · simp only [TypeTag.text, String.utf8ByteSize_append] at h
        omega
  · constructor
    · intro a q hrun
      cases hrun
      exact ⟨hp, trivial⟩
    · intro e hrun
      cases hrun

lemma utf8ByteSize_kind (v : Value) : v.kind.utf8ByteSize ≤ 6 := by
  cases v <;> exact Nat.le_of_ble_eq_true rfl

/-- **Fitting a value to a declared type ends in misfits with short texts**, if fitting an object
does. -/
lemma tries_value (ho : ∀ id declared, id < size → Tries I b n (object id declared))
    {path : String} {tag : TypeTag} (hlabel : Labelled b path tag) {v : Value}
    (hv : v.Sound size n) : Tries I b n (value registry options object path tag v) := by
  induction v using Value.parts_induction generalizing tag with
  | h v ih =>
  unfold value
  split
  case h_2 id => exact (ho id none (hv.within id .object)).map fun _ _ => trivial
  case h_10 enumName c =>
    exact (tries_constant hlabel (Value.modest_enum.mp hv.modest)).map fun _ _ => trivial
  case h_11 element vs =>
    have helement : Labelled b path element := by
      refine hlabel.inner (by simp) ?_
      simp only [TypeTag.text, String.utf8ByteSize_append]
      omega
    exact (tries_items fun v hmem => ih v hmem helement (hv.part hmem)).map fun _ _ => trivial
  case h_12 element vs =>
    have helement : Labelled b path element := by
      refine hlabel.inner (by simp) ?_
      simp only [TypeTag.text, String.utf8ByteSize_append]
      omega
    exact (tries_items fun v hmem => ih v hmem helement (hv.part hmem)).map fun _ _ => trivial
  case h_13 keyTag valueTag es =>
    have hlabels : Labelled b path keyTag ∧ Labelled b path valueTag := by
      constructor <;> refine hlabel.inner (by simp) ?_ <;>
        simp only [TypeTag.text, String.utf8ByteSize_append] <;> omega
    refine (tries_entries fun e he => ⟨?_, fun v hev => ?_⟩).map fun _ _ => trivial
    · have hpart := Value.key_mem_parts he
      exact ih e.1 hpart hlabels.1 (hv.part hpart)
    · have hpart := Value.value_mem_parts he hev
      exact ih v hpart hlabels.2 (hv.part hpart)
  case h_14 name id => exact (ho id (some name) (hv.within id .object)).map fun _ _ => trivial
  case h_15 =>
    refine settles_throw ⟨?_, utf8ByteSize_kind v⟩
    rcases hlabel with h | h
    · exact absurd h ‹tag = .any → False›
    · exact h
  all_goals exact settles_pure trivial

/-! ## Fields -/

lemma tries_place {fit : FieldDecl → Value → Step Value} {missing : FieldDecl → Misfit}
    {d : FieldDecl} {found : Value} (hfit : Tries I b n (fit d found))
    (hmissing : (missing d).Within b n) : Tries I b n (place fit missing d found) := by
  unfold place
  split
  · split
    · exact settles_throw hmissing
    · exact settles_pure trivial
  · exact hfit

lemma tries_fill {fit : FieldDecl → Value → Step Value} {missing : FieldDecl → Misfit}
    {ds : List FieldDecl} {sent : Named Value}
    (hfit : ∀ d ∈ ds, ∀ v : Value, v.Sound size n → Tries I b n (fit d v))
    (hmissing : ∀ d ∈ ds, (missing d).Within b n) (hsent : ∀ e ∈ sent, e.2.Sound size n) :
    Tries I b n (fill fit missing ds sent) := by
  induction ds generalizing sent with
  | nil => exact settles_pure trivial
  | cons d ds ih =>
    obtain ⟨hd, hds⟩ := List.forall_mem_cons.mp hfit
    obtain ⟨hmissing, hmissings⟩ := List.forall_mem_cons.mp hmissing
    have htaken : ((sent.swapOut? d.name).getD (.null, sent)).1.Sound size n ∧
        ∀ e ∈ ((sent.swapOut? d.name).getD (.null, sent)).2, e.2.Sound size n := by
      rcases hs : sent.swapOut? d.name with _ | ⟨found, left⟩
      · exact ⟨Value.sound_null size n, hsent⟩
      · have hperm := Named.perm_of_swapOut? hs
        exact ⟨hsent _ (hperm.mem_iff.mpr List.mem_cons_self), fun e he =>
          hsent e (hperm.mem_iff.mpr (List.mem_cons_of_mem _ he))⟩
    unfold fill
    exact (tries_place (hd _ htaken.1) hmissing).bind fun _ _ =>
      (ih hds hmissings htaken.2).map fun _ _ => trivial

lemma tries_keep {fit : String → Value → Step Value} {fields : Named Value}
    (hfit : ∀ e ∈ fields, Tries I b n (fit e.1 e.2)) : Tries I b n (keep fit fields) := by
  induction fields with
  | nil => exact settles_pure trivial
  | cons e rest ih =>
    obtain ⟨hv, hrest⟩ := List.forall_mem_cons.mp hfit
    exact hv.bind fun _ _ => (ih hrest).map fun _ _ => trivial

/-! ## Objects -/

lemma tries_node (hregistry : registry.Labelled b)
    {fit : String → TypeTag → Value → Step Value}
    (hfit : ∀ path tag v, Labelled b path tag → v.Sound size n → Tries I b n (fit path tag v))
    {o : Node} (hsent : ∀ e ∈ o.fields, e.2.Sound size n) (declared : Option String) :
    Tries I b n (node fit o (schemaFor? registry o.typeName declared)) := by
  rcases hs : schemaFor? registry o.typeName declared with _ | schema
  · exact (tries_keep fun e he => hfit e.1 .any e.2 (Or.inl rfl) (hsent e he)).map fun _ _ =>
      trivial
  · have hschema : schema ∈ registry.types := List.mem_of_find?_eq_some (type?_of_schemaFor? hs)
    refine (tries_fill (fun d hd v hv => hfit _ d.tag v (Or.inr (hregistry schema hschema d hd)) hv)
      (fun d hd => ?_) hsent).map fun _ _ => trivial
    have hlabel := hregistry schema hschema d hd
    show (fieldPath schema d).utf8ByteSize ≤ b
    omega

end Values

/-! ## Progress -/

variable {registry : Registry} {options : DecodeOptions} {size b n : Nat}

/-- Objects that have not been met are as they were sent, and at most `unmet` of them are left. -/
structure Fresh (size n unmet : Nat) (p : Progress) : Prop where
  size_eq : p.graph.size = size
  left : ((Finset.range size).filter (· ∉ p.visited)).card ≤ unmet
  sound : ∀ id ∉ p.visited, ∀ o, p.graph.get? id = some o → ∀ e ∈ o.fields, e.2.Sound size n

lemma Fresh.of_rewrites {P : Nat → Option String → Prop} {unmet : Nat} {p q : Progress}
    (hp : Fresh size n unmet p) (h : Rewrites registry options P p q) : Fresh size n unmet q where
  size_eq := h.size.trans hp.size_eq
  left := by
    refine (Finset.card_le_card fun id hid => ?_).trans hp.left
    obtain ⟨hrange, hnew⟩ := Finset.mem_filter.mp hid
    exact Finset.mem_filter.mpr ⟨hrange, fun hmet => hnew (h.met hmet)⟩
  sound id hid o ho :=
    hp.sound id (fun hmet => hid (h.met hmet)) o ((h.kept id (Or.inr hid)).symm.trans ho)

/-- Meeting one more object leaves one less. -/
lemma Fresh.meet {unmet id : Nat} {p : Progress} (hp : Fresh size n (unmet + 1) p)
    (hid : id < size) (hnew : id ∉ p.visited) :
    Fresh size n unmet { p with visited := id :: p.visited } where
  size_eq := hp.size_eq
  left := by
    have hmem : id ∈ (Finset.range size).filter (· ∉ p.visited) :=
      Finset.mem_filter.mpr ⟨Finset.mem_range.mpr hid, hnew⟩
    have hsub : (Finset.range size).filter (· ∉ id :: p.visited) ⊆
        ((Finset.range size).filter (· ∉ p.visited)).erase id := by
      intro i hi
      obtain ⟨hrange, hi⟩ := Finset.mem_filter.mp hi
      rw [List.mem_cons, not_or] at hi
      exact Finset.mem_erase.mpr ⟨hi.1, Finset.mem_filter.mpr ⟨hrange, hi.2⟩⟩
    have hcard := Finset.card_le_card hsub
    rw [Finset.card_erase_of_mem hmem] at hcard
    have hleft := hp.left
    show ((Finset.range size).filter (· ∉ id :: p.visited)).card ≤ unmet
    omega
  sound i hi := hp.sound i fun hmet => hi (List.mem_cons_of_mem id hmet)

/-- **Fitting an object ends in misfits with short texts**, and not in one that names a missing
object. -/
lemma tries_object (hregistry : registry.Labelled b) (unmet : Nat) {id : Nat}
    (declared : Option String) (hid : id < size) :
    Tries (Fresh size n unmet) b n (object registry options unmet id declared) := by
  induction unmet generalizing id declared with
  | zero =>
    intro p hp
    unfold object
    have hmet : id ∈ p.visited := by
      by_contra hnew
      have hmem : id ∈ (Finset.range size).filter (· ∉ p.visited) :=
        Finset.mem_filter.mpr ⟨Finset.mem_range.mpr hid, hnew⟩
      exact absurd (Finset.card_pos.mpr ⟨id, hmem⟩) (Nat.not_lt_of_le hp.left)
    rw [run_meet_of_mem hmet]
    constructor
    · intro a q hrun
      cases hrun
      exact ⟨hp, trivial⟩
    · intro e hrun
      cases hrun
  | succ unmet ih =>
    intro p hp
    constructor
    · intro a q hrun
      have hrewrites := (ensures_object (P := fun _ _ => True) (unmet + 1) trivial p a q hrun).1
      exact ⟨hp.of_rewrites hrewrites, trivial⟩
    · intro e hrun
      unfold object at hrun
      by_cases hmet : id ∈ p.visited
      · rw [run_meet_of_mem hmet] at hrun
        cases hrun
      rw [run_meet_of_not_mem hmet] at hrun
      have hp' := hp.meet hid hmet
      obtain ⟨o, ho⟩ := Graph.exists_get?_of_lt (hp.size_eq ▸ hid : id < p.graph.size)
      rw [run_rewrite (p := { p with visited := id :: p.visited }) ho] at hrun
      rcases run_bind_eq_error.mp hrun with h | ⟨o', t, -, h⟩
      · have hfit : ∀ path tag v, Labelled b path tag → v.Sound size n →
            Tries (Fresh size n unmet) b n
              (value registry options (object registry options unmet) path tag v) :=
          fun _ _ _ hlabel hv => tries_value (fun _ d hi => ih d hi) hlabel hv
        have hnode := tries_node hregistry hfit (hp.sound id hmet o ho) declared
        exact (hnode _ hp').2 e h
      · cases h

/-- Values and objects as they were sent. -/
def SentSound (g : Graph) (n : Nat) (values : List Value) : Prop :=
  (∀ v ∈ values, v.Sound g.size n) ∧
    ∀ id o, g.get? id = some o → ∀ v ∈ o.values, v.Sound g.size n

/-- **Arguments that do not fit are refused with a short text.** -/
lemma within_of_bind (hregistry : registry.Labelled b) {params : List FieldDecl}
    (hparams : ∀ d ∈ params, d.name.utf8ByteSize + d.tag.text.utf8ByteSize ≤ b) {sent : Arguments}
    (hsent : SentSound sent.graph n (sent.values.map Prod.snd)) {m : Misfit}
    (h : bind registry options params sent = .error m) : m.Within b n := by
  rw [bind_eq] at h
  rcases hrun : (binding registry options params sent).run { graph := sent.graph } with
    e | ⟨values, q⟩ <;> rw [hrun] at h <;> cases h
  have hstart : Fresh sent.graph.size n sent.graph.size { graph := sent.graph } :=
    ⟨rfl, (Finset.card_filter_le _ _).trans (Finset.card_range _).le,
      fun id _ o ho e he => hsent.2 id o ho e.2 (List.mem_map_of_mem he)⟩
  have hbinding : Tries (Fresh sent.graph.size n sent.graph.size) b n
      (binding registry options params sent) :=
    tries_fill (fun d hd v hv => tries_value (fun id declared hid =>
      tries_object hregistry _ declared hid) (Or.inr (hparams d hd)) hv)
      (fun d hd => (Nat.le_add_right _ _).trans (hparams d hd))
      fun e he => hsent.1 e.2 (List.mem_map_of_mem he)
  exact (hbinding _ hstart).2 m hrun

end Projection

end RemoteCall
