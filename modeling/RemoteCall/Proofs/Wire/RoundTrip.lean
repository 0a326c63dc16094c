/-
# Graphs come back from the wire

The writer numbers objects in the order in which it meets them, and the reader gives out positions
in the same order.  The two are tied together by a numbering `f` of the objects: in the middle of a
value, the object that the writer has put at place `i` of its list is the object at position `i` of
the reader's graph.  Objects whose fields are still being read need no care: reading a value only
adds objects behind those that are there.

`Mirrors g f w r a` says that the reader `r` takes what the writer `w` writes and gives `a`; it
holds of every writer and reader here, and gives the round trip of whole lists of values.
-/
import RemoteCall.Proofs.Wire.Reading
import RemoteCall.Proofs.Wire.Writing

namespace RemoteCall.Wire

/-- Each object of a list has its place in the list as its number. -/
def Numbers (f : Nat → Nat) (seen : List Nat) : Prop := ∀ i id, seen[i]? = some id → f id = i

lemma Numbers.of_append {f : Nat → Nat} {seen new : List Nat} (h : Numbers f (seen ++ new)) :
    Numbers f seen := by
  intro i id hi
  obtain ⟨hlt, -⟩ := List.getElem?_eq_some_iff.mp hi
  exact h i id (by rw [List.getElem?_append_left hlt]; exact hi)

lemma numbers_idxOf {seen : List Nat} (h : seen.Nodup) :
    Numbers (fun id => seen.idxOf id) seen := by
  intro i id hi
  obtain ⟨hlt, rfl⟩ := List.getElem?_eq_some_iff.mp hi
  exact h.idxOf_getElem i hlt

/-- The reader takes what the writer writes, at least one byte, and gives an element whose objects
are numbered by `f`.  The writer's list has grown by some objects, and the reader has added these to
its graph. -/
def Mirrors {α : Type} (g : Graph) (f : Nat → Nat) (w : Writer) (r : GraphReader α) (a : α) :
    Prop :=
  ∀ seen bytes seen', StateT.run w seen = .ok (bytes, seen') →
    0 < bytes.length ∧ ∃ new, seen' = seen ++ new ∧
      (Numbers f seen' → seen'.length ≤ 2 ^ 64 → bytes.length < 2 ^ 64 →
        ∀ h : Graph, h.size = seen.length → r.Takes h bytes a (h.adopt g f new))

namespace Mirrors

variable {α : Type} {g : Graph} {f : Nat → Nat}

/-! ## Elements in a row -/

variable {write : α → Writer} {read : GraphReader α} {u : α → α}

/-- Elements that are written one behind the other, each of them mirrored, are taken one after the
other; there are no more of them than bytes. -/
lemma each {l : List α} (hl : ∀ a ∈ l, Mirrors g f (write a) read (u a)) :
    ∀ seen bytes seen', StateT.run (Writer.each write l) seen = .ok (bytes, seen') →
      l.length ≤ bytes.length ∧ ∃ new, seen' = seen ++ new ∧
        (Numbers f seen' → seen'.length ≤ 2 ^ 64 → bytes.length < 2 ^ 64 →
          ∀ h : Graph, h.size = seen.length →
            (GraphReader.times read l.length).Takes h bytes (l.map u) (h.adopt g f new)) := by
  induction l with
  | nil =>
    intro seen bytes seen' hrun
    cases hrun
    refine ⟨Nat.le_refl _, [], by simp, ?_⟩
    intro _ _ _ h _
    rw [Graph.adopt_nil]
    exact GraphReader.takes_pure h []
  | cons a rest ih =>
    intro seen bytes seen' hrun
    obtain ⟨front, t, hfront, hrun⟩ := run_bind_eq_ok.mp hrun
    obtain ⟨back, t', hback, hrun⟩ := run_bind_eq_ok.mp hrun
    cases hrun
    obtain ⟨hpos, new, rfl, htakes⟩ := hl a List.mem_cons_self seen front t hfront
    obtain ⟨hlen, new', rfl, htakes'⟩ :=
      ih (fun b hb => hl b (List.mem_cons_of_mem a hb)) (seen ++ new) back _ hback
    refine ⟨by rw [List.length_cons, List.length_append]; omega, new ++ new', by simp, ?_⟩
    intro hnumbers hroom hbytes h hsize
    rw [List.length_append] at hbytes
    -- the rest is read over the graph that the first element leaves
    have hroom' : (seen ++ new).length ≤ 2 ^ 64 := by
      rw [List.length_append] at hroom
      omega
    have hfirst := htakes hnumbers.of_append hroom' (by omega) h hsize
    have hrest := htakes' hnumbers hroom (by omega) (h.adopt g f new)
      (by rw [Graph.size_adopt, hsize, List.length_append])
    rw [Graph.adopt_append]
    exact hfirst.bind (GraphReader.Takes.map hrest (fun as => u a :: as))

/-- A number of elements and the elements. -/
lemma counted {l : List α} (hl : ∀ a ∈ l, Mirrors g f (write a) read (u a)) :
    Mirrors g f (Writer.counted write l) (GraphReader.counted read) (l.map u) := by
  intro seen bytes seen' hrun
  obtain ⟨back, t, hback, hrun⟩ := run_bind_eq_ok.mp hrun
  cases hrun
  obtain ⟨hlen, new, rfl, htakes⟩ := each hl seen back _ hback
  have hpos := Varint.length_encode_pos (UInt64.ofNat l.length)
  refine ⟨by rw [List.length_append, putCount]; omega, new, rfl, ?_⟩
  intro hnumbers hroom hbytes h hsize
  rw [List.length_append] at hbytes
  exact GraphReader.takes_count_bind (by omega) hlen
    (htakes hnumbers hroom (by omega) h hsize)

/-! ## Parts of values -/

variable {levels : Nat} {v : Value}

/-- A name and the value under it. -/
lemma named (hv : ∀ v, Mirrors g f (Writer.value g levels v) (GraphReader.value levels)
    (v.rename f)) (e : String × Value) :
    Mirrors g f (Writer.named (Writer.value g levels) e)
      (GraphReader.named (GraphReader.value levels)) (Value.renameField f e) := by
  intro seen bytes seen' hrun
  obtain ⟨b, t, hb, hrun⟩ := run_bind_eq_ok.mp hrun
  cases hrun
  obtain ⟨hpos, new, rfl, htakes⟩ := hv e.2 seen b _ hb
  refine ⟨by rw [List.length_append]; omega, new, rfl, ?_⟩
  intro hnumbers hroom hbytes h hsize
  rw [List.length_append, putText, putBytes, List.length_append] at hbytes
  have hname := GraphReader.takes_lift (Reader.takes_text (s := e.1) (by omega)) h
  exact hname.bind ((htakes hnumbers hroom (by omega) h hsize).map fun v => (e.1, v))

/-- A map entry. -/
lemma entry (hv : ∀ v, Mirrors g f (Writer.value g levels v) (GraphReader.value levels)
    (v.rename f)) (e : Value × Option Value) :
    Mirrors g f (Writer.entry (Writer.value g levels) e)
      (GraphReader.entry (GraphReader.value levels)) (Value.renameEntry f e) := by
  obtain ⟨k, v⟩ := e
  intro seen bytes seen' hrun
  cases v with
  | none =>
    obtain ⟨b, t, hb, hrun⟩ := run_bind_eq_ok.mp hrun
    cases hrun
    obtain ⟨hpos, new, rfl, htakes⟩ := hv k seen b _ hb
    refine ⟨by rw [List.length_append]; omega, new, rfl, ?_⟩
    intro hnumbers hroom hbytes h hsize
    rw [List.length_append] at hbytes
    have hkey := htakes hnumbers hroom (by omega) h hsize
    have hflag := GraphReader.takes_lift (Reader.takes_flag false) (h.adopt g f new)
    exact hkey.bind (hflag.map fun _ => (k.rename f, none))
  | some v =>
    obtain ⟨b, t, hb, hrun⟩ := run_bind_eq_ok.mp hrun
    obtain ⟨b', t', hb', hrun⟩ := run_bind_eq_ok.mp hrun
    cases hrun
    obtain ⟨hpos, new, rfl, htakes⟩ := hv k seen b _ hb
    obtain ⟨hpos', new', rfl, htakes'⟩ := hv v (seen ++ new) b' _ hb'
    refine ⟨by rw [List.length_append]; omega, new ++ new', by simp, ?_⟩
    intro hnumbers hroom hbytes h hsize
    simp only [List.length_append] at hbytes hroom
    have hkey := htakes hnumbers.of_append (by rw [List.length_append]; omega) (by omega) h hsize
    have hflag := GraphReader.takes_lift (Reader.takes_flag true) (h.adopt g f new)
    have hvalue := htakes' hnumbers (by simp only [List.length_append]; omega) (by omega)
      (h.adopt g f new) (by rw [Graph.size_adopt, hsize, List.length_append])
    rw [Graph.adopt_append, List.append_assoc]
    exact hkey.bind (hflag.bind (hvalue.map fun v => (k.rename f, some v)))

/-! ## Objects -/

/-- A reference to an object, whether it is written out or sent as a number. -/
lemma object (hv : ∀ v, Mirrors g f (Writer.value g levels v) (GraphReader.value levels)
    (v.rename f)) (id : Nat) :
    Mirrors g f (Writer.object g (Writer.value g levels) id) (GraphReader.value (levels + 1))
      (.object (f id)) := by
  intro seen bytes seen' hrun
  rcases Writer.run_object (g := g) (Writer.value g levels) id seen with
    ⟨number, hnumber, hr⟩ | ⟨-, -, hr⟩ | ⟨-, o, ho, hr⟩ <;> rw [hr] at hrun
  · -- the reader's graph is as long as the writer's list, so it holds the number
    cases hrun
    obtain ⟨hlt, -⟩ := List.getElem?_eq_some_iff.mp hnumber
    refine ⟨by simp, [], by simp, ?_⟩
    intro hnumbers hroom hbytes h hsize
    rw [hnumbers number id hnumber, Graph.adopt_nil]
    exact GraphReader.takes_value (GraphReader.takes_reference (by omega) (by omega))
  · cases hrun
  · obtain ⟨back, t, hback, hrun⟩ := run_bind_eq_ok.mp hrun
    cases hrun
    obtain ⟨hpos, new, rfl, htakes⟩ :=
      counted (fun e _ => named hv e) (seen ++ [id]) back _ hback
    refine ⟨by simp, id :: new, by simp, ?_⟩
    intro hnumbers hroom hbytes h hsize
    simp only [List.cons_append, List.length_cons, List.length_append, putText, putBytes] at hbytes
    -- the object has its number before the objects in its fields get theirs
    have hid : f id = h.size := by
      rw [hsize]
      exact hnumbers seen.length id (by simp)
    have hfields := htakes hnumbers hroom (by omega) (h.insert { typeName := o.typeName }).1
      (by rw [Graph.size_insert, hsize, List.length_append, List.length_singleton])
    rw [hid, ← Graph.modify_adopt_insert h g f ho]
    exact GraphReader.takes_value
      (GraphReader.takes_object (Reader.takes_text (by omega)) hfields)

/-! ## Values -/

/-- A writer that writes the same bytes whatever has been written, beside a reader that adds nothing
to its graph. -/
lemma scalar {t : ValueTag} {content : List UInt8} {v : Value}
    (htakes : content.length < 2 ^ 64 →
      ∀ h, (GraphReader.content (GraphReader.value levels) t).Takes h content v h) :
    Mirrors g f (pure (t.byte :: content)) (GraphReader.value (levels + 1)) v := by
  intro seen bytes seen' hrun
  cases hrun
  refine ⟨by simp, [], by simp, ?_⟩
  intro _ _ hbytes h _
  rw [Graph.adopt_nil]
  rw [List.length_cons] at hbytes
  exact GraphReader.takes_value (htakes (by omega) h)

/-- A tag in front of what is written. -/
lemma tagged {t : ValueTag} {w : Writer} {v : Value}
    (hw : Mirrors g f w (GraphReader.content (GraphReader.value levels) t) v) :
    Mirrors g f (w >>= fun back => pure (t.byte :: back)) (GraphReader.value (levels + 1)) v := by
  intro seen bytes seen' hrun
  obtain ⟨back, s, hback, hrun⟩ := run_bind_eq_ok.mp hrun
  cases hrun
  obtain ⟨-, new, rfl, htakes⟩ := hw seen back _ hback
  refine ⟨by simp, new, rfl, ?_⟩
  intro hnumbers hroom hbytes h hsize
  rw [List.length_cons] at hbytes
  exact GraphReader.takes_value (htakes hnumbers hroom (by omega) h hsize)

/-- The element that a reader gives may be changed. -/
lemma map {β : Type} {w : Writer} {r : GraphReader α} {a : α} (hw : Mirrors g f w r a)
    (k : α → β) : Mirrors g f w (r >>= fun x => pure (k x)) (k a) := by
  intro seen bytes seen' hrun
  obtain ⟨hpos, new, rfl, htakes⟩ := hw seen bytes seen' hrun
  refine ⟨hpos, new, rfl, ?_⟩
  intro hnumbers hroom hbytes h hsize
  exact (htakes hnumbers hroom hbytes h hsize).map k

/-- **The reader of values mirrors the writer.** -/
lemma value (g : Graph) (f : Nat → Nat) (levels : Nat) (v : Value) :
    Mirrors g f (Writer.value g levels v) (GraphReader.value levels) (v.rename f) := by
  induction levels generalizing v with
  | zero =>
    intro seen bytes seen' hrun
    cases hrun
  | succ levels ih =>
    cases v with
    | null => exact scalar (t := .null) fun _ h => GraphReader.takes_pure h _
    | bool b =>
      cases b
      · exact scalar (t := .false) fun _ h => GraphReader.takes_pure h _
      · exact scalar (t := .true) fun _ h => GraphReader.takes_pure h _
    | int i =>
      refine scalar (t := .int) fun _ h => ?_
      have hnumber := GraphReader.takes_lift (Reader.takes_number (Varint.fold i)) h
      have htakes := hnumber.map fun n => Value.int (Varint.unfold n)
      rwa [Varint.unfold_fold] at htakes
    | float bits =>
      refine scalar (t := .float) fun _ h => ?_
      have hraw := Reader.takes_take (bigEndian 8 bits.toNat)
      rw [length_bigEndian] at hraw
      have htakes := (GraphReader.takes_lift hraw h).map fun raw =>
        Value.float (UInt64.ofNat (ofBigEndian raw))
      rwa [ofBigEndian_bits] at htakes
    | str s =>
      refine scalar (t := .str) fun hlen h => ?_
      rw [putText, putBytes, List.length_append] at hlen
      exact (GraphReader.takes_lift (Reader.takes_text (by omega)) h).map Value.str
    | bytes b =>
      refine scalar (t := .bytes) fun hlen h => ?_
      rw [putBytes, List.length_append] at hlen
      exact (GraphReader.takes_lift (Reader.takes_bytes (by omega)) h).map Value.bytes
    | enum constant =>
      refine scalar (t := .enum) fun hlen h => ?_
      rw [putText, putBytes, List.length_append] at hlen
      exact (GraphReader.takes_lift (Reader.takes_text (by omega)) h).map Value.enum
    | list items =>
      rw [Value.rename_list]
      exact tagged (t := .list) ((counted fun v _ => ih v).map Value.list)
    | set items =>
      rw [Value.rename_set]
      exact tagged (t := .set) ((counted fun v _ => ih v).map Value.set)
    | map entries =>
      rw [Value.rename_map]
      exact tagged (t := .map) ((counted fun e _ => entry ih e).map Value.map)
    | object id => exact object ih id

/-- What is written from the start is read from the start, over a graph that is a copy of what the
written values lead to: each object is numbered by its place in the list that the writer ends
with. -/
lemma takes_copy {w : Writer} {r : GraphReader α} {levels : Nat} {roots : List Value}
    {u : (Nat → Nat) → α} {bytes : List UInt8} {seen : List Nat}
    (hw : Writer.Visits g levels roots w) (hr : ∀ f, Mirrors g f w r (u f))
    (hrun : StateT.run w [] = .ok (bytes, seen)) (hbytes : bytes.length < 2 ^ 64) :
    ∃ (f : Nat → Nat) (decoded : Graph),
      g.IsCopy f roots decoded ∧ r.Takes Graph.empty bytes (u f) decoded := by
  have hwritten := (hw []).1 bytes seen hrun
  have hnumbers := numbers_idxOf (hwritten.walk.nodup List.nodup_nil)
  have hroom := hwritten.room
  rw [List.length_nil] at hroom
  obtain ⟨-, new, hnew, htakes⟩ := hr (fun id => seen.idxOf id) [] bytes seen hrun
  obtain rfl : seen = new := hnew
  exact ⟨_, _, hwritten.walk.isCopy, htakes hnumbers (by omega) hbytes Graph.empty rfl⟩

end Mirrors

/-! ## Lists of values -/

/-- **Graphs come back from the wire.**  Values over a graph that are written one behind the other,
with any bytes behind them, are read back in order: exactly the written bytes are taken, the values
are the same but for the numbers of their objects, and the graph that was read is a copy of what the
values lead to.  Counts on the wire are words, so there must be fewer than `2 ^ 64` bytes.  The
values are only refused where the walk through them comes to a value that is nested too deeply, or
to an object that is not there. -/
theorem read_written_values (g : Graph) (values : List Value) :
    (∀ bytes seen, StateT.run (Writer.each (Writer.outermost g) values) [] = .ok (bytes, seen) →
      bytes.length < 2 ^ 64 →
      ∃ (f : Nat → Nat) (decoded : Graph), g.IsCopy f values decoded ∧
        ∀ suffix, StateT.run (StateT.run
          (GraphReader.times GraphReader.outermost values.length) Graph.empty)
            (Cursor.start (bytes ++ suffix)) =
              .ok ((values.map (Value.rename f), decoded), ⟨bytes.length, suffix, false⟩)) ∧
    ∀ cause, StateT.run (Writer.each (Writer.outermost g) values) [] = .error cause →
      (cause = .tooDeep ∧ ∃ seen w, g.Arrives [] values (maxDepth + 1) seen w) ∨
        ∃ n seen id, n ≤ maxDepth ∧ cause = .missingObject id ∧
          g.Arrives [] values n seen (.object id) ∧ g.get? id = none := by
  have hvisits := Writer.visits_each (l := values) fun v _ => Writer.visits_value g (maxDepth + 1) v
  rw [List.flatMap_singleton'] at hvisits
  constructor
  · intro bytes seen hrun hbytes
    -- each object is numbered by its place in the list that the writer ends with
    have hwritten := (hvisits []).1 bytes seen hrun
    have hnumbers := numbers_idxOf (hwritten.walk.nodup List.nodup_nil)
    have hroom := hwritten.room
    rw [List.length_nil] at hroom
    obtain ⟨-, new, hnew, htakes⟩ := Mirrors.each
      (fun v _ => Mirrors.value g (fun id => seen.idxOf id) (maxDepth + 1) v) [] bytes seen hrun
    obtain rfl : seen = new := hnew
    refine ⟨fun id => seen.idxOf id, _, hwritten.walk.isCopy, ?_⟩
    intro suffix
    have hread := htakes hnumbers (by omega) hbytes Graph.empty rfl 0 suffix false
    rwa [Nat.zero_add] at hread
  · intro cause hrun
    refine ((hvisits []).2 cause hrun).imp_right ?_
    rintro ⟨n, seen, id, hn, hcause, harrives, hid⟩
    exact ⟨n, seen, id, Nat.le_of_lt_succ hn, hcause, harrives, hid⟩

/-- Two objects that refer to each other, one of them shared by two values, and an object that
nothing leads to. -/
theorem read_written_cycle :
    let g : Graph := ⟨#[⟨"A", [("b", .object 2)]⟩, ⟨"C", []⟩, ⟨"B", [("a", .object 0)]⟩]⟩
    let values : List Value := [.object 0, .list [.object 2]]
    let bytes : List UInt8 :=
      [0x0B, 1, 65, 1, 1, 98, 0x0B, 1, 66, 1, 1, 97, 0x0C, 0, 0x08, 1, 0x0C, 1]
    StateT.run (Writer.each (Writer.outermost g) values) [] = .ok (bytes, [0, 2]) ∧
      bytes.length < 2 ^ 64 ∧ ∃ (f : Nat → Nat) (decoded : Graph), g.IsCopy f values decoded := by
  intro g values bytes
  have hrun : StateT.run (Writer.each (Writer.outermost g) values) [] = .ok (bytes, [0, 2]) := by
    decide +kernel
  have hlen : bytes.length < 2 ^ 64 := by decide
  obtain ⟨f, decoded, hcopy, -⟩ := (read_written_values g values).1 bytes [0, 2] hrun hlen
  exact ⟨hrun, hlen, f, decoded, hcopy⟩

end RemoteCall.Wire
