/-
# The grammar of values on the wire

The same value has many spellings, because a number may be sent with more bytes than it needs.
Here the format is described apart from the reader and the writer: a `Form` says which bytes stand
for an element over a graph of the objects met so far, and which graph they leave.  The forms take
the spelling of numbers as a parameter; with every spelling allowed they describe exactly what the
reader takes.
-/
import Mathlib.Data.List.Induction
import RemoteCall.Proofs.Steps
import RemoteCall.Proofs.Wire.Reading

namespace RemoteCall.Wire

/-! ## Spellings of numbers -/

/-- Which bytes may stand for a number. -/
abbrev Spelling : Type := UInt64 → List UInt8 → Prop

/-- All bytes that the reader takes for the number. -/
def Spelling.any : Spelling := Varint.Numeral

/-- Only the bytes that the writer gives the number. -/
def Spelling.least : Spelling := fun w bytes => bytes = Varint.encode w

/-- The bytes stand for a count. -/
def SpellsCount (N : Spelling) (n : Nat) (bytes : List UInt8) : Prop :=
  ∃ w : UInt64, w.toNat = n ∧ N w bytes

/-- The bytes stand for a string of bytes, with its length in front. -/
def SpellsBytes (N : Spelling) (b bytes : List UInt8) : Prop :=
  ∃ front, SpellsCount N b.length front ∧ bytes = front ++ b

/-- The bytes stand for a text. -/
def SpellsText (N : Spelling) (s : String) (bytes : List UInt8) : Prop :=
  SpellsBytes N (Text.toBytes s) bytes

/-! ## Forms -/

/-- Over a graph of the objects met so far, some bytes stand for an element and leave a graph. -/
abbrev Form (α : Type) : Type := Graph → List UInt8 → α → Graph → Prop

namespace Form

variable {α : Type}

/-- Elements one behind the other. -/
inductive Each (F : Form α) : Form (List α)
  | nil {g : Graph} : Each F g [] [] g
  | cons {g g' g'' : Graph} {front back : List UInt8} {a : α} {rest : List α} :
      F g front a g' → Each F g' back rest g'' → Each F g (front ++ back) (a :: rest) g''

/-- The number of some elements and the elements. -/
inductive Counted (N : Spelling) (F : Form α) : Form (List α)
  | mk {g g' : Graph} {front back : List UInt8} {l : List α} :
      SpellsCount N l.length front → Each F g back l g' → Counted N F g (front ++ back) l g'

/-- A map entry: the key, a flag, and the value if there is one. -/
inductive Entry (F : Form Value) : Form (Value × Option Value)
  | key {g g' : Graph} {front : List UInt8} {k : Value} :
      F g front k g' → Entry F g (front ++ putFlag false) (k, none) g'
  | pair {g g' g'' : Graph} {front back : List UInt8} {k v : Value} :
      F g front k g' → F g' back v g'' →
        Entry F g (front ++ putFlag true ++ back) (k, some v) g''

/-- A name and the value under it. -/
inductive Field (N : Spelling) (F : Form Value) : Form (String × Value)
  | mk {g g' : Graph} {front back : List UInt8} {name : String} {v : Value} :
      SpellsText N name front → F g back v g' → Field N F g (front ++ back) (name, v) g'

/-- What follows a tag.  An object is part of the graph before its fields are; a reference may only
be to an object of the graph. -/
inductive Content (N : Spelling) (F : Form Value) : ValueTag → Form Value
  | null {g : Graph} : Content N F .null g [] .null g
  | false {g : Graph} : Content N F .false g [] (.bool false) g
  | true {g : Graph} : Content N F .true g [] (.bool true) g
  | int {g : Graph} {w : UInt64} {bytes : List UInt8} :
      N w bytes → Content N F .int g bytes (.int (Varint.unfold w)) g
  | float {g : Graph} {bits : UInt64} :
      Content N F .float g (bigEndian 8 bits.toNat) (.float bits) g
  | str {g : Graph} {s : String} {bytes : List UInt8} :
      SpellsText N s bytes → Content N F .str g bytes (.str s) g
  | bytes {g : Graph} {b bytes : List UInt8} :
      SpellsBytes N b bytes → Content N F .bytes g bytes (.bytes b) g
  | enum {g : Graph} {constant : String} {bytes : List UInt8} :
      SpellsText N constant bytes → Content N F .enum g bytes (.enum constant) g
  | list {g g' : Graph} {items : List Value} {bytes : List UInt8} :
      Counted N F g bytes items g' → Content N F .list g bytes (.list items) g'
  | set {g g' : Graph} {items : List Value} {bytes : List UInt8} :
      Counted N F g bytes items g' → Content N F .set g bytes (.set items) g'
  | map {g g' : Graph} {entries : List (Value × Option Value)} {bytes : List UInt8} :
      Counted N (Entry F) g bytes entries g' → Content N F .map g bytes (.map entries) g'
  | object {g g' : Graph} {typeName : String} {fields : Named Value} {front back : List UInt8} :
      SpellsText N typeName front →
      Counted N (Field N F) (g.insert { typeName }).1 back fields g' →
      Content N F .object g (front ++ back) (.object g.size)
        (g'.modify g.size fun o => { o with fields := fields })
  | reference {g : Graph} {w : UInt64} {bytes : List UInt8} :
      N w bytes → w.toNat < g.size → Content N F .reference g bytes (.object w.toNat) g

/-- A value, when `levels` more levels of nesting are allowed: a tag and what follows it. -/
def value (N : Spelling) : Nat → Form Value
  | 0 => fun _ _ _ _ => False
  | levels + 1 => fun g bytes v g' =>
    ∃ t back, bytes = t.byte :: back ∧ Content N (value N levels) t g back v g'

/-- Values at the outermost level, one behind the other. -/
def values (N : Spelling) : Form (List Value) := Each (value N (maxDepth + 1))

end Form

/-! ## What the reader takes has its form -/

lemma ofBigEndian_append (bytes : List UInt8) (b : UInt8) :
    ofBigEndian (bytes ++ [b]) = ofBigEndian bytes * 256 + b.toNat := by
  simp [ofBigEndian]

lemma bigEndian_ofBigEndian (bytes : List UInt8) :
    bigEndian bytes.length (ofBigEndian bytes) = bytes := by
  induction bytes using List.reverseRecOn with
  | nil => rfl
  | append_singleton bytes b ih =>
    have hb := b.toNat_lt
    have hlow : (ofBigEndian bytes * 256 + b.toNat) % 256 = b.toNat := by omega
    have hhigh : (ofBigEndian bytes * 256 + b.toNat) / 256 = ofBigEndian bytes := by omega
    rw [List.length_append, List.length_singleton, ofBigEndian_append, bigEndian, hlow, hhigh, ih,
      UInt8.ofNat_toNat]

/-- Eight bytes are those of the word that they stand for. -/
lemma bigEndian_bits {bytes : List UInt8} (h : bytes.length = 8) :
    bigEndian 8 (UInt64.ofNat (ofBigEndian bytes)).toNat = bytes := by
  have hbytes := bigEndian_ofBigEndian bytes
  rw [h] at hbytes
  have hlt : ofBigEndian bytes < 2 ^ 64 := by
    -- the number of the bytes is what is left of it in eight bytes
    have hmod := ofBigEndian_bigEndian 8 (ofBigEndian bytes)
    rw [hbytes] at hmod
    rw [hmod]
    exact Nat.mod_lt _ (by decide)
  rw [UInt64.toNat_ofNat_of_lt' hlt, hbytes]

namespace Reader

variable {α β : Type}

/-- Of the element that the reader gives, and of the bytes that it has taken off the front for it,
`P` holds. -/
def Yields (r : Reader α) (P : List UInt8 → α → Prop) : Prop :=
  ∀ c a c', StateT.run r c = .ok (a, c') →
    ∃ bytes, c.rest = bytes ++ c'.rest ∧ c'.offset = c.offset + bytes.length ∧ P bytes a

lemma yields_pure {P : List UInt8 → α → Prop} {a : α} (h : P [] a) : Yields (pure a) P := by
  intro c a' c' hrun
  cases hrun
  exact ⟨[], rfl, rfl, h⟩

lemma yields_throw {P : List UInt8 → α → Prop} (e : Malformed) :
    Yields (throw e : Reader α) P := by
  intro c a c' hrun
  cases hrun

lemma Yields.bind {r : Reader α} {k : α → Reader β} {P : List UInt8 → α → Prop}
    {Q : List UInt8 → β → Prop} (hr : Yields r P)
    (hk : ∀ front a, P front a → Yields (k a) fun back b => Q (front ++ back) b) :
    Yields (r >>= k) Q := by
  intro c b c'' hrun
  obtain ⟨a, c', hfront, hback⟩ := run_bind_eq_ok.mp hrun
  obtain ⟨front, hrest, hoffset, hP⟩ := hr c a c' hfront
  obtain ⟨back, hrest', hoffset', hQ⟩ := hk front a hP c' b c'' hback
  refine ⟨front ++ back, ?_, ?_, hQ⟩
  · rw [hrest, hrest', List.append_assoc]
  · rw [hoffset', hoffset, List.length_append, Nat.add_assoc]

lemma Yields.mono {r : Reader α} {P Q : List UInt8 → α → Prop} (hr : Yields r P)
    (h : ∀ bytes a, P bytes a → Q bytes a) : Yields r Q := by
  intro c a c' hrun
  obtain ⟨bytes, hrest, hoffset, hP⟩ := hr c a c' hrun
  exact ⟨bytes, hrest, hoffset, h bytes a hP⟩

lemma yields_byte : Yields byte fun bytes b => bytes = [b] := by
  rintro ⟨offset, _ | ⟨b, rest⟩, trusting⟩ b' c' hrun <;> cases hrun
  exact ⟨[b], rfl, rfl, rfl⟩

lemma yields_flag : Yields flag fun bytes b => bytes = putFlag b := by
  refine yields_byte.bind ?_
  rintro _ b rfl
  split
  · rename_i h
    exact yields_pure (by simp [h, putFlag])
  · split
    · rename_i h
      exact yields_pure (by simp [h, putFlag])
    · exact yields_throw _

lemma yields_take (n : Nat) : Yields (take n) fun bytes b => bytes = b ∧ bytes.length = n := by
  intro c b c' hrun
  simp only [StateT.run, take] at hrun
  split at hrun
  · rename_i front rest hsplit
    cases hrun
    obtain ⟨hrest, hlen⟩ := splitAt?_eq_some.mp hsplit
    exact ⟨b, hrest, by simp [hlen], rfl, hlen⟩
  · cases hrun

lemma yields_number : Yields number fun bytes w => Spelling.any w bytes := by
  intro c w c' hrun
  simp only [StateT.run, number] at hrun
  split at hrun
  · rename_i v used hdecode
    cases hrun
    obtain ⟨front, back, hrest, rfl, hnumeral⟩ := Varint.exists_numeral_of_decode hdecode
    exact ⟨front, by simp [hrest], rfl, hnumeral⟩
  · cases hrun

lemma yields_count : Yields count fun bytes n => SpellsCount .any n bytes := by
  refine yields_number.bind fun front w hw => ?_
  intro c n c' hrun
  rw [StateT.run_bind, StateT.run_get] at hrun
  -- the comparison with the bytes that are left takes none of them
  have hrun : StateT.run (if (c.trusting || decide (w.toNat ≤ c.rest.length)) = true
      then pure w.toNat else throw _ : Reader Nat) c = .ok (n, c') := hrun
  split at hrun <;> cases hrun
  exact ⟨[], rfl, rfl, w, rfl, by rwa [List.append_nil]⟩

lemma yields_bytes : Yields bytes fun bytes b => SpellsBytes .any b bytes := by
  refine yields_count.bind fun front n hn => (yields_take n).mono ?_
  rintro _ b ⟨rfl, rfl⟩
  exact ⟨front, hn, rfl⟩

lemma yields_text : Yields text fun bytes s => SpellsText .any s bytes := by
  refine yields_bytes.bind fun front raw hraw => ?_
  split
  · rename_i s hs
    refine yields_pure ?_
    rwa [List.append_nil, SpellsText, Text.toBytes_of_ofBytes? hs]
  · exact yields_throw _

end Reader

namespace GraphReader

variable {α β : Type}

/-- The same for a reader that adds to a graph. -/
def Yields (r : GraphReader α) (g : Graph) (P : List UInt8 → α → Graph → Prop) : Prop :=
  Reader.Yields (StateT.run r g) fun bytes p => P bytes p.1 p.2

variable {g : Graph} {P : List UInt8 → α → Graph → Prop} {Q : List UInt8 → β → Graph → Prop}

lemma yields_pure {a : α} (h : P [] a g) : Yields (pure a) g P := Reader.yields_pure h

lemma Yields.bind {r : GraphReader α} {k : α → GraphReader β} (hr : Yields r g P)
    (hk : ∀ front a g', P front a g' → Yields (k a) g' fun back b g'' => Q (front ++ back) b g'') :
    Yields (r >>= k) g Q := by
  rw [Yields, StateT.run_bind]
  exact Reader.Yields.bind hr fun front p hp => hk front p.1 p.2 hp

lemma Yields.mono {r : GraphReader α} {P' : List UInt8 → α → Graph → Prop} (hr : Yields r g P)
    (h : ∀ bytes a g', P bytes a g' → P' bytes a g') : Yields r g P' :=
  Reader.Yields.mono hr fun bytes p hp => h bytes p.1 p.2 hp

/-- The last step may change the element. -/
lemma Yields.map {r : GraphReader α} {f : α → β}
    (hr : Yields r g fun bytes a g' => Q bytes (f a) g') :
    Yields (r >>= fun a => pure (f a)) g Q :=
  hr.bind fun front a g' h => yields_pure (by rwa [List.append_nil])

lemma yields_lift {r : Reader α} {R : List UInt8 → α → Prop} (hr : Reader.Yields r R) (g : Graph) :
    Yields (liftM r) g fun bytes a g' => R bytes a ∧ g = g' := by
  rw [Yields, run_lift]
  refine hr.bind fun front a ha => Reader.yields_pure ?_
  rw [List.append_nil]
  exact ⟨ha, rfl⟩

/-! ## Elements in a row -/

variable {read : GraphReader α} {F : Form α}

lemma yields_times (h : ∀ g, Yields read g (F g)) (n : Nat) (g : Graph) :
    Yields (times read n) g fun bytes l g' => l.length = n ∧ Form.Each F g bytes l g' := by
  induction n generalizing g with
  | zero => exact yields_pure ⟨rfl, .nil⟩
  | succ n ih =>
    refine (h g).bind fun front a g' ha => ?_
    refine Yields.map ((ih g').mono ?_)
    rintro back rest g'' ⟨rfl, hrest⟩
    exact ⟨rfl, .cons ha hrest⟩

lemma yields_counted (h : ∀ g, Yields read g (F g)) (g : Graph) :
    Yields (counted read) g (Form.Counted .any F g) := by
  refine (yields_lift Reader.yields_count g).bind ?_
  rintro front n _ ⟨hn, rfl⟩
  refine (yields_times h n g).mono ?_
  rintro back l g' ⟨rfl, hl⟩
  exact .mk hn hl

/-! ## Values -/

section Parts

variable {read : GraphReader Value} {F : Form Value}

lemma yields_entry (h : ∀ g, Yields read g (F g)) (g : Graph) :
    Yields (entry read) g (Form.Entry F g) := by
  refine (h g).bind fun front k g' hk => ?_
  refine (yields_lift Reader.yields_flag g').bind ?_
  rintro _ b _ ⟨rfl, rfl⟩
  cases b with
  | false => exact yields_pure (by rw [List.append_nil]; exact .key hk)
  | true =>
    refine Yields.map ((h g').mono fun back v g'' hv => ?_)
    rw [← List.append_assoc]
    exact .pair hk hv

lemma yields_named (h : ∀ g, Yields read g (F g)) (g : Graph) :
    Yields (named read) g (Form.Field .any F g) := by
  refine (yields_lift Reader.yields_text g).bind ?_
  rintro front name _ ⟨hname, rfl⟩
  exact Yields.map ((h g).mono fun back v g' hv => .mk hname hv)

lemma yields_object (h : ∀ g, Yields read g (F g)) (g : Graph) :
    Yields (object read) g (Form.Content .any F .object g) := by
  refine (yields_lift Reader.yields_text g).bind ?_
  rintro front typeName _ ⟨hname, rfl⟩
  rw [Yields, StateT.run_bind, StateT.run_get, pure_bind]
  show Reader.Yields (StateT.run (set (g.insert { typeName }).1 >>= fun _ => _) g) _
  rw [StateT.run_bind, StateT.run_set, pure_bind]
  refine Yields.bind (yields_counted (yields_named h) (g.insert { typeName }).1) ?_
  intro back fields g' hfields
  rw [Yields, StateT.run_bind, StateT.run_modify, pure_bind]
  refine yields_pure ?_
  rw [List.append_nil]
  exact .object hname hfields

lemma yields_reference (g : Graph) : Yields reference g (Form.Content .any F .reference g) := by
  refine (yields_lift Reader.yields_number g).bind ?_
  rintro front w _ ⟨hw, rfl⟩
  rw [Yields, StateT.run_bind, StateT.run_get, pure_bind]
  split
  · rename_i hlt
    refine yields_pure ?_
    rw [List.append_nil]
    exact .reference hw hlt
  · exact Reader.yields_throw _

lemma yields_content (h : ∀ g, Yields read g (F g)) (t : ValueTag) (g : Graph) :
    Yields (content read t) g (Form.Content .any F t g) := by
  cases t with
  | null => exact yields_pure .null
  | false => exact yields_pure .false
  | true => exact yields_pure .true
  | int =>
    refine Yields.map ((yields_lift Reader.yields_number g).mono ?_)
    rintro bytes w _ ⟨hw, rfl⟩
    exact .int hw
  | float =>
    refine Yields.map ((yields_lift (Reader.yields_take 8) g).mono ?_)
    rintro bytes raw _ ⟨⟨rfl, hlen⟩, rfl⟩
    have hfloat : Form.Content .any F .float g
        (bigEndian 8 (UInt64.ofNat (ofBigEndian bytes)).toNat) _ g := .float
    rwa [bigEndian_bits hlen] at hfloat
  | str =>
    refine Yields.map ((yields_lift Reader.yields_text g).mono ?_)
    rintro bytes s _ ⟨hs, rfl⟩
    exact .str hs
  | bytes =>
    refine Yields.map ((yields_lift Reader.yields_bytes g).mono ?_)
    rintro bytes b _ ⟨hb, rfl⟩
    exact .bytes hb
  | enum =>
    refine Yields.map ((yields_lift Reader.yields_text g).mono ?_)
    rintro bytes s _ ⟨hs, rfl⟩
    exact .enum hs
  | list => exact Yields.map ((yields_counted h g).mono fun _ _ _ => .list)
  | set => exact Yields.map ((yields_counted h g).mono fun _ _ _ => .set)
  | map => exact Yields.map ((yields_counted (yields_entry h) g).mono fun _ _ _ => .map)
  | object => exact yields_object h g
  | reference => exact yields_reference g

end Parts

/-- **Whatever the reader takes for a value has the form of one.** -/
lemma yields_value (levels : Nat) (g : Graph) :
    Yields (value levels) g (Form.value .any levels g) := by
  induction levels generalizing g with
  | zero => exact Reader.yields_throw _
  | succ levels ih =>
    refine (yields_lift Reader.yields_byte g).bind ?_
    rintro _ b _ ⟨rfl, rfl⟩
    rcases ht : ValueTag.ofByte? b with _ | t
    · exact Reader.yields_throw _
    · refine (yields_content ih t g).mono fun back v g' hv => ?_
      exact ⟨t, back, by rw [ValueTag.byte_of_ofByte? ht]; rfl, hv⟩

end GraphReader

/-! ## What has a form is taken by the reader -/

lemma SpellsBytes.takes {b bytes : List UInt8} (h : SpellsBytes .any b bytes) :
    Reader.Takes Reader.bytes bytes b := by
  obtain ⟨front, ⟨w, hw, hnumeral⟩, rfl⟩ := h
  refine Reader.takes_numeral_bind hnumeral (Nat.le_of_eq hw) ?_
  rw [hw]
  exact Reader.takes_take b

lemma SpellsText.takes {s : String} {bytes : List UInt8} (h : SpellsText .any s bytes) :
    Reader.Takes Reader.text bytes s := by
  refine Reader.Takes.bind_nil (SpellsBytes.takes h) ?_
  rw [Text.ofBytes?_toBytes]
  exact Reader.takes_pure s

namespace Form

variable {α : Type}

/-- The reader takes all bytes of the form, which are at least one, and gives their element. -/
def TakenBy (F : Form α) (r : GraphReader α) : Prop :=
  ∀ g bytes a g', F g bytes a g' → 0 < bytes.length ∧ r.Takes g bytes a g'

variable {F : Form α} {read : GraphReader α} {g g' : Graph} {bytes : List UInt8}

lemma Each.takes (hF : F.TakenBy read) {l : List α} (h : Each F g bytes l g') :
    l.length ≤ bytes.length ∧ (GraphReader.times read l.length).Takes g bytes l g' := by
  induction h with
  | nil => exact ⟨Nat.le_refl 0, GraphReader.takes_pure _ []⟩
  | @cons g g' g'' front back a rest ha _ ih =>
    obtain ⟨hpos, htakes⟩ := hF g front a g' ha
    obtain ⟨hlen, htakes'⟩ := ih
    refine ⟨by rw [List.length_cons, List.length_append]; omega, ?_⟩
    exact htakes.bind (htakes'.map fun as => a :: as)

lemma Counted.takenBy (hF : F.TakenBy read) :
    (Counted .any F).TakenBy (GraphReader.counted read) := by
  rintro g _ l g' ⟨⟨w, hw, hnumeral⟩, hl⟩
  obtain ⟨hlen, htakes⟩ := hl.takes hF
  refine ⟨?_, ?_⟩
  · have hpos := Varint.Numeral.length_pos hnumeral
    rw [List.length_append]
    omega
  · refine GraphReader.takes_numeral_bind hnumeral (by omega) ?_
    rw [hw]
    exact htakes

section Parts

variable {F : Form Value} {read : GraphReader Value}

lemma Entry.takenBy (hF : F.TakenBy read) : (Entry F).TakenBy (GraphReader.entry read) := by
  rintro g _ _ g' (@⟨_, _, front, k, hk⟩ | @⟨_, h, _, front, back, k, v, hk, hv⟩)
  · obtain ⟨hpos, htakes⟩ := hF g front k g' hk
    refine ⟨by rw [List.length_append]; omega, htakes.bind ?_⟩
    exact (GraphReader.takes_lift (Reader.takes_flag false) g').map fun _ => (k, none)
  · obtain ⟨hpos, htakes⟩ := hF g front k h hk
    obtain ⟨-, htakes'⟩ := hF h back v g' hv
    refine ⟨by rw [List.length_append, List.length_append]; omega, ?_⟩
    rw [List.append_assoc]
    refine htakes.bind ((GraphReader.takes_lift (Reader.takes_flag true) h).bind ?_)
    exact htakes'.map fun v => (k, some v)

lemma Field.takenBy (hF : F.TakenBy read) : (Field .any F).TakenBy (GraphReader.named read) := by
  rintro g _ _ g' @⟨_, _, front, back, name, v, hname, hv⟩
  obtain ⟨hpos, htakes⟩ := hF g back v g' hv
  refine ⟨by rw [List.length_append]; omega, ?_⟩
  exact (GraphReader.takes_lift hname.takes g).bind (htakes.map fun v => (name, v))

lemma Content.takes (hF : F.TakenBy read) {t : ValueTag} {v : Value}
    (h : Content .any F t g bytes v g') : (GraphReader.content read t).Takes g bytes v g' := by
  cases h with
  | null => exact GraphReader.takes_pure g _
  | false => exact GraphReader.takes_pure g _
  | true => exact GraphReader.takes_pure g _
  | @int _ w _ hw =>
    exact (GraphReader.takes_lift (Reader.takes_numeral hw) g).map fun w =>
      Value.int (Varint.unfold w)
  | @float _ bits =>
    have hraw := Reader.takes_take (bigEndian 8 bits.toNat)
    rw [length_bigEndian] at hraw
    have htakes := (GraphReader.takes_lift hraw g).map fun raw =>
      Value.float (UInt64.ofNat (ofBigEndian raw))
    rwa [ofBigEndian_bits] at htakes
  | str hs => exact (GraphReader.takes_lift hs.takes g).map Value.str
  | bytes hb => exact (GraphReader.takes_lift (SpellsBytes.takes hb) g).map Value.bytes
  | enum hs => exact (GraphReader.takes_lift hs.takes g).map Value.enum
  | list hitems => exact (Counted.takenBy hF _ _ _ _ hitems).2.map Value.list
  | set hitems => exact (Counted.takenBy hF _ _ _ _ hitems).2.map Value.set
  | map hentries =>
    exact (Counted.takenBy (Entry.takenBy hF) _ _ _ _ hentries).2.map Value.map
  | object hname hfields =>
    exact GraphReader.takes_object hname.takes
      (Counted.takenBy (Field.takenBy hF) _ _ _ _ hfields).2
  | reference hw hlt => exact GraphReader.takes_reference_numeral hw hlt

end Parts

/-- **Whatever has the form of a value is taken by the reader.** -/
lemma value_takenBy (levels : Nat) : (value .any levels).TakenBy (GraphReader.value levels) := by
  induction levels with
  | zero => exact fun _ _ _ _ h => h.elim
  | succ levels ih =>
    rintro g _ v g' ⟨t, back, rfl, h⟩
    exact ⟨by simp, GraphReader.takes_value (h.takes ih)⟩

end Form

end RemoteCall.Wire
