/-
# What a value and an object become when they are fitted

Fitting changes a value in two places only: a whole number under a declared floating-point number is
converted, and a constant that its enumeration lacks is replaced.  The result is a function of the
type and the value alone, the `image`; the graph and the objects met so far have no part in it.  An
object that is fitted to a declaration gets the image of what was sent for each declared field, and
without a declaration it stays as it is.
-/
import RemoteCall.Projection
import RemoteCall.Proofs.Named
import RemoteCall.Proofs.Objects

namespace RemoteCall

namespace Registry

/-- The constant that a constant becomes: the one that stands for unknown ones if the enumeration
is declared, lacks the constant and has such a one, unless constants are read strictly. -/
def standIn (r : Registry) (options : DecodeOptions) (enumName c : String) : String :=
  match r.enum? enumName with
  | none => c
  | some s => if s.contains c || options.strictEnums then c else s.sentinel.getD c

end Registry

namespace Projection

variable (registry : Registry) (options : DecodeOptions)

mutual

/-- The image of a value under a type. -/
def image : TypeTag → Value → Value
  | .float, .int i => .float (Number.doubleOfInt i.toInt)
  | .enum enumName, .enum c => .enum (registry.standIn options enumName c)
  | .list element, .list vs => .list (imageItems element vs)
  | .set element, .set vs => .set (imageItems element vs)
  | .map keyTag valueTag, .map es => .map (imageEntries keyTag valueTag es)
  | _, v => v
  termination_by structural _ v => v

/-- The images of items. -/
def imageItems (element : TypeTag) : List Value → List Value
  | [] => []
  | v :: rest => image element v :: imageItems element rest
  termination_by structural vs => vs

/-- The images of map entries. -/
def imageEntries (keyTag valueTag : TypeTag) :
    List (Value × Option Value) → List (Value × Option Value)
  | [] => []
  | (k, none) :: rest => (image keyTag k, none) :: imageEntries keyTag valueTag rest
  | (k, some v) :: rest =>
    (image keyTag k, some (image valueTag v)) :: imageEntries keyTag valueTag rest
  termination_by structural es => es

end

/-- The image of a map entry: a key without a value stays without one. -/
def imageEntry (keyTag valueTag : TypeTag) (e : Value × Option Value) : Value × Option Value :=
  (image registry options keyTag e.1, e.2.map (image registry options valueTag))

lemma imageItems_eq_map (element : TypeTag) (vs : List Value) :
    imageItems registry options element vs = vs.map (image registry options element) := by
  induction vs with
  | nil => rfl
  | cons v rest ih => simp [imageItems, ih]

lemma imageEntries_eq_map (keyTag valueTag : TypeTag) (es : List (Value × Option Value)) :
    imageEntries registry options keyTag valueTag es =
      es.map (imageEntry registry options keyTag valueTag) := by
  induction es with
  | nil => rfl
  | cons e rest ih =>
    obtain ⟨k, v⟩ := e
    cases v <;> simp [imageEntries, imageEntry, ih]

@[simp] lemma image_list (element : TypeTag) (vs : List Value) :
    image registry options (.list element) (.list vs) =
      .list (vs.map (image registry options element)) := by
  rw [image, imageItems_eq_map]

@[simp] lemma image_set (element : TypeTag) (vs : List Value) :
    image registry options (.set element) (.set vs) =
      .set (vs.map (image registry options element)) := by
  rw [image, imageItems_eq_map]

@[simp] lemma image_map (keyTag valueTag : TypeTag) (es : List (Value × Option Value)) :
    image registry options (.map keyTag valueTag) (.map es) =
      .map (es.map (imageEntry registry options keyTag valueTag)) := by
  rw [image, imageEntries_eq_map]

/-- Where any value is allowed, nothing is changed. -/
@[simp] lemma image_any (v : Value) : image registry options .any v = v := by
  cases v <;> rfl

@[simp] lemma image_null (tag : TypeTag) : image registry options tag .null = .null := by
  cases tag <;> rfl

@[simp] lemma isNull_image (tag : TypeTag) (v : Value) :
    (image registry options tag v).isNull = v.isNull := by
  cases v <;> cases tag <;> rfl

/-! ## Objects -/

/-- What each of some declared places takes out of what was sent, null if nothing was sent for
it. -/
def taken : List FieldDecl → Named Value → List Value
  | [], _ => []
  | d :: ds, sent =>
    let (found, left) := (sent.swapOut? d.name).getD (.null, sent)
    found :: taken ds left

/-- Declared places filled with the images of some values. -/
def filled (ds : List FieldDecl) (vs : List Value) : Named Value :=
  List.zipWith (fun d v => (d.name, image registry options d.tag v)) ds vs

/-- What an object becomes when it is fitted to a declaration, if there is one for it. -/
def nodeImage (o : Node) : Option TypeSchema → Node
  | none => o
  | some schema =>
    { typeName := schema.name
      fields := filled registry options schema.fields (taken schema.fields o.fields) }

/-- What a place takes was sent, or is null. -/
lemma mem_of_mem_taken {ds : List FieldDecl} {sent : Named Value} {v : Value}
    (h : v ∈ taken ds sent) : v = .null ∨ ∃ e ∈ sent, e.2 = v := by
  induction ds generalizing sent with
  | nil => cases h
  | cons d ds ih =>
    rcases hs : sent.swapOut? d.name with _ | ⟨found, left⟩
    · simp only [taken, hs, Option.getD_none, List.mem_cons] at h
      exact h.imp id ih |>.elim Or.inl id
    · simp only [taken, hs, Option.getD_some, List.mem_cons] at h
      have hperm := Named.perm_of_swapOut? hs
      rcases h with rfl | h
      · exact Or.inr ⟨_, hperm.mem_iff.mpr List.mem_cons_self, rfl⟩
      · refine (ih h).imp_right ?_
        rintro ⟨e, he, rfl⟩
        exact ⟨e, hperm.mem_iff.mpr (List.mem_cons_of_mem _ he), rfl⟩

/-- Where neither declared nor sent names repeat, each place takes what was sent under its name. -/
lemma taken_eq_map {ds : List FieldDecl} (hds : (ds.map FieldDecl.name).Nodup)
    {sent : Named Value} (hsent : sent.names.Nodup) :
    taken ds sent = ds.map fun d => (sent.get? d.name).getD .null := by
  induction ds generalizing sent with
  | nil => rfl
  | cons d ds ih =>
    obtain ⟨hd, hds⟩ := List.nodup_cons.mp hds
    rcases hs : sent.swapOut? d.name with _ | ⟨found, left⟩
    · have hnone := Named.swapOut?_eq_none_iff.mp hs
      simp [taken, hs, hnone, ih hds hsent]
    · have hfound : sent.get? d.name = some found := by
        rw [← Named.swapOut?_fst, hs]
        rfl
      obtain ⟨hleft, hget⟩ := Named.get?_of_swapOut? hsent hs
      have hrest : taken ds left = ds.map fun d => (sent.get? d.name).getD .null := by
        rw [ih hds hleft]
        refine List.map_congr_left fun d' hd' => ?_
        have hne : d'.name ≠ d.name := fun h => hd (h ▸ List.mem_map_of_mem hd')
        rw [hget, if_neg hne]
      simp [taken, hs, hfound, hrest]

end Projection

end RemoteCall
