/-
# What was read is written back

The reader gives an object the next position when it comes to it, so positions are handed out in
the order in which the writer numbers objects: after the elements read so far, the writer's list is
`0, 1, …` up to the size of the reader's graph.  The writer looks at the graph that the reader ends
with, not at the one it has when the object is read; of that graph it needs the objects which the
element adds, and later elements leave these alone.  Each form therefore has two laws: it only adds
objects behind those that are there, and the writer gives its element the least spelling.
-/
import Mathlib
import RemoteCall.Proofs.Wire.Grammar
import RemoteCall.Proofs.Wire.Writing

namespace RemoteCall

namespace Graph

/-- The objects of a graph stand unchanged at the front of another graph. -/
def Begins (g g' : Graph) : Prop := g.size ≤ g'.size ∧ ∀ id < g.size, g'.get? id = g.get? id

/-- A graph holds all objects by which `g'` is longer than `g`. -/
def Covers (whole g g' : Graph) : Prop :=
  ∀ id, g.size ≤ id → id < g'.size → whole.get? id = g'.get? id

variable {whole g g' g'' : Graph}

lemma Begins.refl (g : Graph) : g.Begins g := ⟨Nat.le_refl _, fun _ _ => rfl⟩

lemma Begins.trans (h : g.Begins g') (h' : g'.Begins g'') : g.Begins g'' :=
  ⟨h.1.trans h'.1, fun id hid => (h'.2 id (hid.trans_le h.1)).trans (h.2 id hid)⟩

lemma get?_insert (g : Graph) (o : Node) (id : Nat) :
    (g.insert o).1.get? id = if id = g.size then some o else g.get? id := by
  simp only [get?, insert, size]
  exact Array.getElem?_push

lemma begins_insert (g : Graph) (o : Node) : g.Begins (g.insert o).1 := by
  constructor
  · rw [size_insert]
    omega
  · intro id hid
    rw [get?_insert, if_neg (by omega)]

/-- A change behind the objects of `g`. -/
lemma Begins.modify (h : g.Begins g') {id : Nat} (hid : g.size ≤ id) (f : Node → Node) :
    g.Begins (g'.modify id f) := by
  constructor
  · rw [size_modify]
    exact h.1
  · intro i hi
    rw [get?_modify_of_ne g' (by omega), h.2 i hi]

lemma covers_self (g g' : Graph) : g'.Covers g g' := fun _ _ _ => rfl

lemma Covers.front (h : whole.Covers g g'') (hrest : g'.Begins g'') : whole.Covers g g' :=
  fun id hid hlt => (h id hid (hlt.trans_le hrest.1)).trans (hrest.2 id hlt)

lemma Covers.back (h : whole.Covers g g'') (hfront : g.Begins g') : whole.Covers g' g'' :=
  fun id hid hlt => h id (hfront.1.trans hid) hlt

/-- A graph that holds an object with its fields holds the objects in these fields. -/
lemma Covers.fields {typeName : String} {fields : Named Value}
    (h : whole.Covers g (g'.modify g.size fun o => { o with fields := fields })) :
    whole.Covers (g.insert { typeName }).1 g' := by
  intro id hid hlt
  rw [size_insert] at hid
  rw [h id (by omega) (by rwa [size_modify]), get?_modify_of_ne g' (by omega)]

lemma Covers.get?_object {typeName : String} {fields : Named Value}
    (h : whole.Covers g (g'.modify g.size fun o => { o with fields := fields }))
    (hg' : (g.insert { typeName }).1.Begins g') :
    whole.get? g.size = some { typeName, fields } := by
  have hsize := hg'.1
  rw [size_insert] at hsize
  rw [h g.size (Nat.le_refl _) (by rw [size_modify]; omega), get?_modify_self,
    hg'.2 g.size (by rw [size_insert]; omega), get?_insert, if_pos rfl]
  rfl

end Graph

namespace Wire

/-! ## Forms only add objects -/

namespace Form

variable {α : Type} {N : Spelling} {g g' : Graph} {bytes : List UInt8}

/-- The form leaves the objects of its graph alone. -/
def Extends (F : Form α) : Prop := ∀ g bytes a g', F g bytes a g' → g.Begins g'

lemma Each.extends {F : Form α} (hF : F.Extends) : (Each F).Extends := by
  intro g bytes l g' h
  induction h with
  | nil => exact .refl _
  | cons ha _ ih => exact (hF _ _ _ _ ha).trans ih

lemma Counted.extends {F : Form α} (hF : F.Extends) : (Counted N F).Extends := by
  rintro g _ l g' ⟨-, hl⟩
  exact Each.extends hF _ _ _ _ hl

variable {F : Form Value}

lemma Entry.extends (hF : F.Extends) : (Entry F).Extends := by
  rintro g _ _ g' (hk | ⟨hk, hv⟩)
  · exact hF _ _ _ _ hk
  · exact (hF _ _ _ _ hk).trans (hF _ _ _ _ hv)

lemma Field.extends (hF : F.Extends) : (Field N F).Extends := by
  rintro g _ _ g' ⟨-, hv⟩
  exact hF _ _ _ _ hv

lemma Content.extends (hF : F.Extends) (t : ValueTag) : (Content N F t).Extends := by
  intro g bytes v g' h
  cases h with
  | list hitems => exact Counted.extends hF _ _ _ _ hitems
  | set hitems => exact Counted.extends hF _ _ _ _ hitems
  | map hentries => exact Counted.extends (Entry.extends hF) _ _ _ _ hentries
  | object _ hfields =>
    have h := Counted.extends (Field.extends hF) _ _ _ _ hfields
    exact ((Graph.begins_insert g _).trans h).modify (Nat.le_refl _) _
  | _ => exact .refl g

lemma value_extends (levels : Nat) : (value N levels).Extends := by
  induction levels with
  | zero => exact fun _ _ _ _ h => h.elim
  | succ levels ih =>
    rintro g _ v g' ⟨t, back, rfl, h⟩
    exact Content.extends ih t _ _ _ _ h

end Form

/-! ## The least spelling -/

/-- The bytes that the writer gives a number may stand for it. -/
def Spelling.AllowsLeast (M : Spelling) : Prop := ∀ w, M w (Varint.encode w)

lemma Spelling.least_allowsLeast : Spelling.least.AllowsLeast := fun _ => rfl

lemma Spelling.any_allowsLeast : Spelling.any.AllowsLeast := Varint.numeral_encode

variable {N M : Spelling}

/-- The bytes that the writer gives stand for the same count; they are the same bytes if no number
was spelled longer than needed. -/
lemma SpellsCount.putCount {n : Nat} {bytes : List UInt8} (h : SpellsCount N n bytes) :
    (M.AllowsLeast → SpellsCount M n (putCount n)) ∧ (N = .least → putCount n = bytes) := by
  obtain ⟨w, rfl, hw⟩ := h
  rw [Wire.putCount, UInt64.ofNat_toNat]
  refine ⟨fun hM => ⟨w, rfl, hM w⟩, ?_⟩
  rintro rfl
  exact hw.symm

lemma SpellsBytes.putBytes {b bytes : List UInt8} (h : SpellsBytes N b bytes) :
    (M.AllowsLeast → SpellsBytes M b (putBytes b)) ∧ (N = .least → putBytes b = bytes) := by
  obtain ⟨front, hfront, rfl⟩ := h
  obtain ⟨hcount, hsame⟩ := hfront.putCount (M := M)
  refine ⟨fun hM => ⟨_, hcount hM, rfl⟩, fun hN => ?_⟩
  rw [Wire.putBytes, hsame hN]

lemma SpellsText.putText {s : String} {bytes : List UInt8} (h : SpellsText N s bytes) :
    (M.AllowsLeast → SpellsText M s (putText s)) ∧ (N = .least → putText s = bytes) :=
  SpellsBytes.putBytes h

namespace Form

/-- An element read over a graph is written over any graph that covers the objects it has added, and
the numbers handed out by the writer are the positions in the graph.  The form `F` is given for
every way of spelling numbers; what is written is the element's least spelling. -/
def Rewritten {α : Type} (N : Spelling) (F : Spelling → Form α) (whole : Graph)
    (write : α → Writer) : Prop :=
  ∀ g bytes a g', F N g bytes a g' → whole.Covers g g' →
    ∃ least, StateT.run (write a) (List.range g.size) = .ok (least, List.range g'.size) ∧
      (∀ M : Spelling, M.AllowsLeast → F M g least a g') ∧ (N = .least → least = bytes)

variable {α : Type} {whole : Graph}

lemma run_map {w : Writer} {seen seen' : List Nat} {bytes : List UInt8}
    (h : StateT.run w seen = .ok (bytes, seen')) (u : List UInt8 → List UInt8) :
    StateT.run (w >>= fun b => pure (u b)) seen = .ok (u bytes, seen') :=
  run_bind_eq_ok.mpr ⟨bytes, seen', h, rfl⟩

/-! ## Elements in a row -/

variable {F : Spelling → Form α} {write : α → Writer}

lemma Each.rewritten (hext : (F N).Extends) (h : Rewritten N F whole write) :
    Rewritten N (fun M => Each (F M)) whole (Writer.each write) := by
  intro g bytes l g' hl
  induction hl with
  | nil => exact fun _ => ⟨[], rfl, fun _ _ => .nil, fun _ => rfl⟩
  | @cons g g' g'' front back a rest ha hrest ih =>
    intro hwhole
    obtain ⟨front', hrun, hfront', hsame⟩ :=
      h g front a g' ha (hwhole.front (Each.extends hext _ _ _ _ hrest))
    obtain ⟨back', hrun', hback', hsame'⟩ := ih (hwhole.back (hext _ _ _ _ ha))
    refine ⟨front' ++ back', run_bind_eq_ok.mpr ⟨front', _, hrun, run_map hrun' (front' ++ ·)⟩,
      fun M hM => .cons (hfront' M hM) (hback' M hM), fun hN => ?_⟩
    rw [hsame hN, hsame' hN]

lemma Counted.rewritten (hext : (F N).Extends) (h : Rewritten N F whole write) :
    Rewritten N (fun M => Counted M (F M)) whole (Writer.counted write) := by
  rintro g _ l g' ⟨hcount, hl⟩ hwhole
  have hcount' (M : Spelling) := (hcount.putCount (M := M)).1
  have hsame := (hcount.putCount (M := N)).2
  obtain ⟨back, hrun, hback, hsame'⟩ := Each.rewritten hext h g _ l g' hl hwhole
  refine ⟨putCount l.length ++ back, run_map hrun (putCount l.length ++ ·),
    fun M hM => .mk (hcount' M hM) (hback M hM), fun hN => ?_⟩
  rw [hsame hN, hsame' hN]

/-! ## Values -/

section Parts

variable {F : Spelling → Form Value} {write : Value → Writer}

lemma Entry.rewritten (hext : (F N).Extends) (h : Rewritten N F whole write) :
    Rewritten N (fun M => Entry (F M)) whole (Writer.entry write) := by
  rintro g _ _ g' (@⟨_, _, front, k, hk⟩ | @⟨_, g₁, _, front, back, k, v, hk, hv⟩) hwhole
  · obtain ⟨front', hrun, hfront, hsame⟩ := h g front k g' hk hwhole
    refine ⟨front' ++ putFlag false, run_map hrun (· ++ putFlag false),
      fun M hM => .key (hfront M hM), fun hN => ?_⟩
    rw [hsame hN]
  · obtain ⟨front', hrun, hfront, hsame⟩ :=
      h g front k g₁ hk (hwhole.front (hext _ _ _ _ hv))
    obtain ⟨back', hrun', hback, hsame'⟩ := h g₁ back v g' hv (hwhole.back (hext _ _ _ _ hk))
    refine ⟨front' ++ putFlag true ++ back', run_bind_eq_ok.mpr
      ⟨front', _, hrun, run_map hrun' (front' ++ putFlag true ++ ·)⟩,
      fun M hM => .pair (hfront M hM) (hback M hM), fun hN => ?_⟩
    rw [hsame hN, hsame' hN]

lemma Field.rewritten (h : Rewritten N F whole write) :
    Rewritten N (fun M => Field M (F M)) whole (Writer.named write) := by
  rintro g _ _ g' @⟨_, _, front, back, name, v, hname, hv⟩ hwhole
  have hname' (M : Spelling) := (hname.putText (M := M)).1
  have hsame := (hname.putText (M := N)).2
  obtain ⟨back', hrun, hback, hsame'⟩ := h g back v g' hv hwhole
  refine ⟨putText name ++ back', run_map hrun (putText name ++ ·),
    fun M hM => .mk (hname' M hM) (hback M hM), fun hN => ?_⟩
  rw [hsame hN, hsame' hN]

/-- A reference to an object that has been read is written as its position. -/
lemma run_object_seen (whole : Graph) (write : Value → Writer) {id n : Nat} (hid : id < n) :
    StateT.run (Writer.object whole write id) (List.range n) =
      .ok (ValueTag.reference.byte :: putCount id, List.range n) := by
  rcases Writer.run_object (g := whole) write id (List.range n) with
    ⟨number, hnumber, hrun⟩ | ⟨hnone, -⟩ | ⟨hnone, -⟩
  · obtain ⟨hlt, heq⟩ := List.getElem?_eq_some_iff.mp hnumber
    obtain rfl : number = id := by rwa [List.getElem_range] at heq
    exact hrun
  · exact absurd (List.mem_range.mpr hid) hnone
  · exact absurd (List.mem_range.mpr hid) hnone

/-- The first reference to the object behind all that have been read is written as the object. -/
lemma run_object_next (write : Value → Writer) {id : Nat} {o : Node} (ho : whole.get? id = some o)
    {back : List UInt8} {seen : List Nat}
    (hback : StateT.run (Writer.counted (Writer.named write) o.fields) (List.range (id + 1)) =
      .ok (back, seen)) :
    StateT.run (Writer.object whole write id) (List.range id) =
      .ok (ValueTag.object.byte :: (putText o.typeName ++ back), seen) := by
  rcases Writer.run_object (g := whole) write id (List.range id) with
    ⟨number, hnumber, -⟩ | ⟨-, hnone, -⟩ | ⟨-, o', ho', hrun⟩
  · exact absurd (List.mem_of_getElem? hnumber) List.not_mem_range_self
  · rw [ho] at hnone
    cases hnone
  · rw [ho] at ho'
    cases ho'
    rw [hrun, ← List.range_succ]
    exact run_map hback (ValueTag.object.byte :: putText o.typeName ++ ·)

end Parts

/-- What follows a tag: the writer puts the same tag in front of it. -/
lemma Content.rewritten {levels : Nat}
    (h : Rewritten N (fun M => value M levels) whole (Writer.value whole levels))
    {t : ValueTag} {g g' : Graph} {bytes : List UInt8} {v : Value}
    (hv : Content N (value N levels) t g bytes v g') (hwhole : whole.Covers g g') :
    ∃ least, StateT.run (Writer.value whole (levels + 1) v) (List.range g.size) =
        .ok (t.byte :: least, List.range g'.size) ∧
      (∀ M : Spelling, M.AllowsLeast → Content M (value M levels) t g least v g') ∧
      (N = .least → least = bytes) := by
  have hext := value_extends (N := N) levels
  cases hv with
  | null => exact ⟨[], rfl, fun _ _ => .null, fun _ => rfl⟩
  | false => exact ⟨[], rfl, fun _ _ => .false, fun _ => rfl⟩
  | true => exact ⟨[], rfl, fun _ _ => .true, fun _ => rfl⟩
  | @int _ w _ hw =>
    refine ⟨Varint.encode w, ?_, fun M hM => .int (hM w), ?_⟩
    · simp only [Writer.value, Varint.encodeSigned, Varint.fold_unfold]
      rfl
    · rintro rfl
      exact hw.symm
  | float => exact ⟨_, rfl, fun _ _ => .float, fun _ => rfl⟩
  | str hs => exact ⟨_, rfl, fun _ hM => .str (hs.putText.1 hM), (hs.putText (M := N)).2⟩
  | bytes hb => exact ⟨_, rfl, fun _ hM => .bytes (hb.putBytes.1 hM), (hb.putBytes (M := N)).2⟩
  | enum hs => exact ⟨_, rfl, fun _ hM => .enum (hs.putText.1 hM), (hs.putText (M := N)).2⟩
  | list hitems =>
    obtain ⟨least, hrun, hleast, hsame⟩ :=
      Counted.rewritten hext h g bytes _ g' hitems hwhole
    exact ⟨least, run_map hrun (ValueTag.list.byte :: ·), fun M hM => .list (hleast M hM), hsame⟩
  | set hitems =>
    obtain ⟨least, hrun, hleast, hsame⟩ :=
      Counted.rewritten hext h g bytes _ g' hitems hwhole
    exact ⟨least, run_map hrun (ValueTag.set.byte :: ·), fun M hM => .set (hleast M hM), hsame⟩
  | map hentries =>
    obtain ⟨least, hrun, hleast, hsame⟩ :=
      Counted.rewritten (Entry.extends hext) (Entry.rewritten hext h) g bytes _ g' hentries hwhole
    exact ⟨least, run_map hrun (ValueTag.map.byte :: ·), fun M hM => .map (hleast M hM), hsame⟩
  | @object _ g' typeName fields front back hname hfields =>
    have hname' (M : Spelling) := (hname.putText (M := M)).1
    have hsame := (hname.putText (M := N)).2
    have hfieldsExt := Counted.extends (N := N) (Field.extends (N := N) hext)
    have ho := hwhole.get?_object (hfieldsExt _ _ _ _ hfields)
    obtain ⟨back', hrun, hback, hsame'⟩ :=
      Counted.rewritten (Field.extends hext) (Field.rewritten h) _ back _ g' hfields hwhole.fields
    rw [Graph.size_insert] at hrun
    refine ⟨putText typeName ++ back', ?_, fun M hM => .object (hname' M hM) (hback M hM),
      fun hN => ?_⟩
    · rw [Graph.size_modify]
      exact run_object_next _ ho hrun
    · rw [hsame hN, hsame' hN]
  | @reference _ w _ hw hlt =>
    refine ⟨Varint.encode w, ?_, fun M hM => .reference (hM w) hlt, ?_⟩
    · have hrun := run_object_seen whole (Writer.value whole levels) hlt
      rwa [putCount, UInt64.ofNat_toNat] at hrun
    · rintro rfl
      exact hw.symm

/-- **A value that was read is written back in its least spelling.** -/
lemma value_rewritten (N : Spelling) (whole : Graph) (levels : Nat) :
    Rewritten N (fun M => value M levels) whole (Writer.value whole levels) := by
  induction levels with
  | zero => exact fun _ _ _ _ h => h.elim
  | succ levels ih =>
    rintro g _ v g' ⟨t, back, rfl, h⟩ hwhole
    obtain ⟨least, hrun, hleast, hsame⟩ := h.rewritten ih hwhole
    refine ⟨t.byte :: least, hrun, fun M hM => ⟨t, least, rfl, hleast M hM⟩, fun hN => ?_⟩
    rw [hsame hN]

lemma values_rewritten (N : Spelling) (whole : Graph) :
    Rewritten N values whole (Writer.each (Writer.outermost whole)) :=
  Each.rewritten (value_extends _) (value_rewritten N whole _)

end Form

/-! ## Payloads -/

/-- **What was read is written back.**  If values can be read off the front of some bytes, they can
be written over the graph that was read with them.  The objects are written in the order of their
positions, and reading what was written gives the same values over the same graph, whatever bytes
follow.  The bytes that were read have the form of the values with some spelling of the numbers;
they are the bytes that are written exactly if every number in them has its least spelling. -/
theorem rewrite_read_values {n : Nat} {input : List UInt8} {values : List Value} {g : Graph}
    {c : Cursor}
    (h : StateT.run (StateT.run (GraphReader.times GraphReader.outermost n) Graph.empty)
      (Cursor.start input) = .ok ((values, g), c)) :
    ∃ consumed bytes,
      input = consumed ++ c.rest ∧ c.offset = consumed.length ∧
      StateT.run (Writer.each (Writer.outermost g) values) [] = .ok (bytes, List.range g.size) ∧
      (∀ suffix, StateT.run (StateT.run (GraphReader.times GraphReader.outermost n) Graph.empty)
        (Cursor.start (bytes ++ suffix)) = .ok ((values, g), ⟨bytes.length, suffix, false⟩)) ∧
      Form.values .any Graph.empty consumed values g ∧
      (bytes = consumed ↔ Form.values .least Graph.empty consumed values g) := by
  obtain ⟨consumed, hinput, hoffset, rfl, hform⟩ :=
    GraphReader.yields_times (GraphReader.yields_value (maxDepth + 1)) n Graph.empty _ _ _ h
  have hcovers := Graph.covers_self Graph.empty g
  obtain ⟨bytes, hrun, hleast, -⟩ := Form.values_rewritten .any g _ _ _ _ hform hcovers
  refine ⟨consumed, bytes, hinput, ?_, hrun, fun suffix => ?_, hform, ?_, fun hconsumed => ?_⟩
  · rw [hoffset]
    exact Nat.zero_add _
  · have hany := hleast .any Spelling.any_allowsLeast
    have hread := (hany.takes (Form.value_takenBy _)).2 0 suffix false
    rwa [Nat.zero_add] at hread
  · rintro rfl
    exact hleast .least Spelling.least_allowsLeast
  · -- the writer gives one result, and the least spelling of what was read is one
    obtain ⟨bytes', hrun', -, hsame⟩ := Form.values_rewritten .least g _ _ _ _ hconsumed hcovers
    rw [hrun] at hrun'
    cases hrun'
    exact hsame rfl

/-- Two objects that refer to each other, one of them referred to again by a second value.  The
length of the first text and the first reference are spelled with two bytes. -/
theorem rewrite_read_ring :
    let input : List UInt8 := [0x0B, 0x81, 0, 65, 1, 1, 98, 0x0B, 1, 66, 1, 1, 97, 0x0C, 0x80, 0,
      0x08, 1, 0x0C, 1, 7]
    let g : Graph := ⟨#[⟨"A", [("b", .object 1)]⟩, ⟨"B", [("a", .object 0)]⟩]⟩
    let values : List Value := [.object 0, .list [.object 1]]
    StateT.run (StateT.run (GraphReader.times GraphReader.outermost 2) Graph.empty)
        (Cursor.start input) = .ok ((values, g), ⟨20, [7], false⟩) ∧
      StateT.run (Writer.each (Writer.outermost g) values) [] = .ok ([0x0B, 1, 65, 1, 1, 98, 0x0B,
        1, 66, 1, 1, 97, 0x0C, 0, 0x08, 1, 0x0C, 1], [0, 1]) ∧
      ∃ consumed, input = consumed ++ [7] ∧ Form.values .any Graph.empty consumed values g ∧
        ¬ Form.values .least Graph.empty consumed values g := by
  intro input g values
  have hread : StateT.run (StateT.run (GraphReader.times GraphReader.outermost 2) Graph.empty)
      (Cursor.start input) = .ok ((values, g), ⟨20, [7], false⟩) := by
    cbv
  have hwrite : StateT.run (Writer.each (Writer.outermost g) values) [] = .ok ([0x0B, 1, 65, 1, 1,
      98, 0x0B, 1, 66, 1, 1, 97, 0x0C, 0, 0x08, 1, 0x0C, 1], [0, 1]) := by
    decide +kernel
  obtain ⟨consumed, bytes, hinput, hoffset, hrun, -, hany, hleast⟩ := rewrite_read_values hread
  refine ⟨hread, hwrite, consumed, hinput, hany, fun h => ?_⟩
  -- two bytes fewer are written than were read
  rw [hwrite] at hrun
  cases hrun
  rw [← hleast.mpr h] at hoffset
  cases hoffset

end Wire

end RemoteCall
