/-
# What the fields of an object are drawn from

Fitting makes up no value.  Each field of an object is null, or the image of one of the values that
the object was sent with; and so is each argument.  An image has images as its parts, and it refers
to the object that the value itself refers to.
-/
import RemoteCall.Proofs.Levels
import RemoteCall.Proofs.Projection.Faithful

namespace RemoteCall

namespace Projection

variable {registry : Registry} {options : DecodeOptions} {vs ws : List Value}

/-- The values `ws` are images of some of the values `vs`. -/
def Imaged (registry : Registry) (options : DecodeOptions) (vs ws : List Value) : Prop :=
  ∀ w ∈ ws, ∃ v ∈ vs, ∃ tag, w = image registry options tag v

/-- The values `ws` are null or images of some of the values `vs`. -/
def Drawn (registry : Registry) (options : DecodeOptions) (vs ws : List Value) : Prop :=
  ∀ w ∈ ws, w = .null ∨ ∃ v ∈ vs, ∃ tag, w = image registry options tag v

/-! ## Images of parts -/

lemma imaged_map (tag : TypeTag) (vs : List Value) :
    Imaged registry options vs (vs.map (image registry options tag)) := by
  intro w hw
  obtain ⟨v, hv, rfl⟩ := List.mem_map.mp hw
  exact ⟨v, hv, tag, rfl⟩

lemma imaged_entries (keyTag valueTag : TypeTag) (es : List (Value × Option Value)) :
    Imaged registry options (Value.map es).parts
      (Value.map (es.map (imageEntry registry options keyTag valueTag))).parts := by
  intro w hw
  obtain ⟨e', he', hw⟩ := List.mem_flatMap.mp hw
  obtain ⟨e, he, rfl⟩ := List.mem_map.mp he'
  rcases List.mem_cons.mp hw with rfl | hw
  · exact ⟨e.1, Value.key_mem_parts he, keyTag, rfl⟩
  · obtain ⟨v, hv, rfl⟩ : ∃ v, e.2 = some v ∧ image registry options valueTag v = w := by
      simpa [imageEntry] using hw
    exact ⟨v, Value.value_mem_parts he hv, valueTag, rfl⟩

/-- The parts of an image are images of parts. -/
lemma imaged_parts (tag : TypeTag) (v : Value) :
    Imaged registry options v.parts (image registry options tag v).parts := by
  unfold image
  split
  case h_3 element vs =>
    rw [imageItems_eq_map]
    exact imaged_map element vs
  case h_4 element vs =>
    rw [imageItems_eq_map]
    exact imaged_map element vs
  case h_5 keyTag valueTag es =>
    rw [imageEntries_eq_map]
    exact imaged_entries keyTag valueTag es
  case h_6 => exact fun w hw => ⟨w, hw, .any, (image_any ..).symm⟩
  all_goals exact fun w hw => absurd hw List.not_mem_nil

lemma object_of_image {tag : TypeTag} {v : Value} {id : Nat}
    (h : image registry options tag v = .object id) : v = .object id := by
  cases v <;> cases tag <;> simp_all [image]

/-- What is nested in images is an image of what is nested in the values. -/
lemma Imaged.nests (h : Imaged registry options vs ws) {n : Nat} {w : Value} (hw : w.Nests n ws) :
    ∃ v tag, v.Nests n vs ∧ w = image registry options tag v := by
  induction hw generalizing vs with
  | here hw =>
    obtain ⟨v, hv, tag, rfl⟩ := h _ hw
    exact ⟨v, tag, .here hv, rfl⟩
  | part hv _ ih =>
    obtain ⟨v, hmem, tag, rfl⟩ := h _ hv
    obtain ⟨u, tag', hu, rfl⟩ := ih (imaged_parts tag v)
    exact ⟨u, tag', .part hmem hu, rfl⟩

/-- What is nested in values that are drawn from others is null at the top, or the image of what is
nested in those others. -/
lemma Drawn.nests (h : Drawn registry options vs ws) {n : Nat} {w : Value} (hw : w.Nests n ws) :
    (n = 0 ∧ w = .null) ∨ ∃ v tag, v.Nests n vs ∧ w = image registry options tag v := by
  cases hw with
  | here hw =>
    rcases h w hw with rfl | ⟨v, hv, tag, rfl⟩
    · exact Or.inl ⟨rfl, rfl⟩
    · exact Or.inr ⟨v, tag, .here hv, rfl⟩
  | @part u _ n hu hparts =>
    rcases h u hu with rfl | ⟨v, hv, tag, rfl⟩
    · cases hparts with
      | here hw => cases hw
      | part hw => cases hw
    · obtain ⟨v', tag', hv', rfl⟩ := (imaged_parts tag v).nests hparts
      exact Or.inr ⟨v', tag', .part hv hv', rfl⟩

lemma Drawn.nests_object (h : Drawn registry options vs ws) {n id : Nat}
    (hid : (Value.object id).Nests n ws) : (Value.object id).Nests n vs := by
  rcases h.nests hid with ⟨-, hnull⟩ | ⟨v, tag, hv, himage⟩
  · cases hnull
  · rwa [object_of_image himage.symm] at hv

lemma drawn_self (vs : List Value) : Drawn registry options vs vs :=
  fun w hw => Or.inr ⟨w, hw, .any, (image_any ..).symm⟩

/-! ## Fields and arguments -/

/-- The values that fill declared places are drawn from what was sent. -/
lemma drawn_filled (ds : List FieldDecl) (sent : Named Value) :
    Drawn registry options (sent.map Prod.snd)
      ((filled registry options ds (taken ds sent)).map Prod.snd) := by
  intro w hw
  obtain ⟨e, he, rfl⟩ := List.mem_map.mp hw
  rw [filled, ← List.map_uncurry_zip_eq_zipWith] at he
  obtain ⟨⟨d, v⟩, hdv, rfl⟩ := List.mem_map.mp he
  rcases mem_of_mem_taken (List.of_mem_zip hdv).2 with rfl | ⟨e, hsent, rfl⟩
  · exact Or.inl (image_null ..)
  · exact Or.inr ⟨e.2, List.mem_map_of_mem hsent, d.tag, rfl⟩

lemma drawn_nodeImage (o : Node) (schema : Option TypeSchema) :
    Drawn registry options o.values (nodeImage registry options o schema).values := by
  cases schema with
  | none => exact drawn_self _
  | some schema => exact drawn_filled schema.fields o.fields

/-- The fields of every object are drawn from those that it was sent with. -/
lemma Rewrites.drawn {P : Nat → Option String → Prop} {g : Graph} {q : Progress}
    (h : Rewrites registry options P { graph := g } q) {id : Nat} {o' : Node}
    (ho' : q.graph.get? id = some o') :
    ∃ o, g.get? id = some o ∧ Drawn registry options o.values o'.values := by
  by_cases hid : id ∈ q.visited
  · obtain ⟨o, x, declared, ho, hx, -, hbecame⟩ :=
      h.became (fun _ => True) (fun _ _ => trivial) id hid List.not_mem_nil
    rw [hx] at ho'
    cases ho'
    exact ⟨o, ho, hbecame.image ▸ drawn_nodeImage o _⟩
  · exact ⟨o', (h.kept id (Or.inr hid)).symm.trans ho', drawn_self _⟩

end Projection

end RemoteCall
