/-
# How deep what has been written is nested

A writer gives up at the first value that is nested too deeply.  So if it has written some values,
the walk through them has come to nothing below the levels that were allowed.  What was read has
been written in that sense: the reader allows as many levels as the writer, so it could be written
back.
-/
import RemoteCall.Message
import RemoteCall.Proofs.Levels
import RemoteCall.Proofs.Wire.Canonical

namespace RemoteCall

namespace Wire

namespace Writer

variable {g : Graph} {levels : Nat} {seen seen' seen'' : List Nat} {bytes bytes' : List UInt8}

/-! ## Values in place of what holds them -/

section Each

variable {α : Type} {write : α → Writer}

lemma run_each_append {l l' : List α} (h : StateT.run (each write l) seen = .ok (bytes, seen'))
    (h' : StateT.run (each write l') seen' = .ok (bytes', seen'')) :
    StateT.run (each write (l ++ l')) seen = .ok (bytes ++ bytes', seen'') := by
  induction l generalizing seen bytes with
  | nil =>
    cases h
    exact h'
  | cons a l ih =>
    obtain ⟨front, t, hfront, h⟩ := run_bind_eq_ok.mp h
    obtain ⟨back, t', hback, hput⟩ := run_bind_eq_ok.mp h
    cases hput
    rw [List.append_assoc]
    exact run_bind_eq_ok.mpr ⟨front, t, hfront, Form.run_map (ih hback) (front ++ ·)⟩

/-- Writing an element, when it succeeds, meets the objects that writing its values does. -/
def Spreads (write : α → Writer) (write' : Value → Writer) (rootsOf : α → List Value) : Prop :=
  ∀ a seen bytes seen', StateT.run (write a) seen = .ok (bytes, seen') →
    ∃ bytes', StateT.run (each write' (rootsOf a)) seen = .ok (bytes', seen')

variable {write' : Value → Writer} {rootsOf : α → List Value}

lemma run_each_flatMap (h : Spreads write write' rootsOf) {l : List α}
    (hl : StateT.run (each write l) seen = .ok (bytes, seen')) :
    ∃ bytes', StateT.run (each write' (l.flatMap rootsOf)) seen = .ok (bytes', seen') := by
  induction l generalizing seen bytes with
  | nil =>
    cases hl
    exact ⟨[], rfl⟩
  | cons a l ih =>
    obtain ⟨front, t, hfront, hl⟩ := run_bind_eq_ok.mp hl
    obtain ⟨back, t', hback, hput⟩ := run_bind_eq_ok.mp hl
    cases hput
    obtain ⟨front', hfront'⟩ := h a seen front t hfront
    obtain ⟨back', hback'⟩ := ih hback
    exact ⟨front' ++ back', run_each_append hfront' hback'⟩

lemma run_counted_flatMap (h : Spreads write write' rootsOf) {l : List α}
    (hl : StateT.run (counted write l) seen = .ok (bytes, seen')) :
    ∃ bytes', StateT.run (each write' (l.flatMap rootsOf)) seen = .ok (bytes', seen') := by
  obtain ⟨back, t, hback, hput⟩ := run_bind_eq_ok.mp hl
  cases hput
  exact run_each_flatMap h hback

end Each

variable {write : Value → Writer}

lemma run_each_singleton {v : Value} (h : StateT.run (write v) seen = .ok (bytes, seen')) :
    StateT.run (each write [v]) seen = .ok (bytes, seen') := by
  have hnil : StateT.run (each write []) seen' = .ok ([], seen') := rfl
  have hrest := Form.run_map hnil (bytes ++ ·)
  rw [List.append_nil] at hrest
  exact run_bind_eq_ok.mpr ⟨bytes, seen', h, hrest⟩

lemma spreads_self (write : Value → Writer) : Spreads write write fun v => [v] :=
  fun _ _ bytes _ h => ⟨bytes, run_each_singleton h⟩

lemma spreads_named (write : Value → Writer) : Spreads (named write) write fun e => [e.2] := by
  intro e seen bytes seen' h
  obtain ⟨b, t, hb, hput⟩ := run_bind_eq_ok.mp h
  cases hput
  exact ⟨b, run_each_singleton hb⟩

lemma spreads_entry (write : Value → Writer) :
    Spreads (entry write) write fun e => e.1 :: e.2.toList := by
  rintro ⟨k, v⟩ seen bytes seen' h
  cases v with
  | none =>
    obtain ⟨b, t, hb, hput⟩ := run_bind_eq_ok.mp h
    cases hput
    exact ⟨b, run_each_singleton hb⟩
  | some v =>
    obtain ⟨b, t, hb, h⟩ := run_bind_eq_ok.mp h
    obtain ⟨b', t', hb', hput⟩ := run_bind_eq_ok.mp h
    cases hput
    exact ⟨b ++ b', run_each_append (run_each_singleton hb) (run_each_singleton hb')⟩

/-- The fields of an object have been written by writing their values. -/
lemma run_fields {fields : Named Value}
    (h : StateT.run (counted (named write) fields) seen = .ok (bytes, seen')) :
    ∃ bytes', StateT.run (each write (fields.map Prod.snd)) seen = .ok (bytes', seen') := by
  rw [List.map_eq_flatMap]
  exact run_counted_flatMap (spreads_named write) h

/-- A value that is no object has been written by writing its parts, one level further down. -/
lemma run_parts {v : Value} (hv : ∀ id, v ≠ .object id)
    (h : StateT.run (value g (levels + 1) v) seen = .ok (bytes, seen')) :
    ∃ bytes', StateT.run (each (value g levels) v.parts) seen = .ok (bytes', seen') := by
  cases v with
  | list items | set items =>
    obtain ⟨b, t, hb, hput⟩ := run_bind_eq_ok.mp h
    cases hput
    simpa [Value.parts] using run_counted_flatMap (spreads_self (value g levels)) hb
  | map entries =>
    obtain ⟨b, t, hb, hput⟩ := run_bind_eq_ok.mp h
    cases hput
    exact run_counted_flatMap (spreads_entry (value g levels)) hb
  | object id => exact absurd rfl (hv id)
  | bool b =>
    cases b <;> cases h <;> exact ⟨[], rfl⟩
  | _ =>
    cases h
    exact ⟨[], rfl⟩

/-! ## What has been written is not nested too deeply -/

/-- **The walk through values that have been written comes to nothing below the levels that were
allowed.** -/
lemma lt_of_arrives {vs : List Value} {n : Nat} {w : Value}
    (h : StateT.run (each (value g levels) vs) seen = .ok (bytes, seen'))
    (harrives : g.Arrives seen vs n seen'' w) : n < levels := by
  induction harrives generalizing levels bytes seen' with
  | here =>
    obtain ⟨front, t, hfront, -⟩ := run_bind_eq_ok.mp h
    cases levels with
    | zero => cases hfront
    | succ levels => omega
  | @later v _ _ _ seen t _ hfirst _ ih =>
    obtain ⟨front, t', hfront, h⟩ := run_bind_eq_ok.mp h
    obtain ⟨back, t'', hback, -⟩ := run_bind_eq_ok.mp h
    -- the writer has met what the walk has
    obtain rfl := hfirst.unique ((visits_value g levels v seen).1 front t' hfront).walk
    exact ih hback
  | @part v w rest n seen t hparts ih =>
    obtain ⟨front, t', hfront, -⟩ := run_bind_eq_ok.mp h
    cases levels with
    | zero => cases hfront
    | succ levels =>
      have hv : ∀ id, v ≠ .object id := by
        rintro id rfl
        cases hparts
      obtain ⟨bytes', hrun⟩ := run_parts hv hfront
      have hlt := ih hrun
      omega
  | @field id o w rest n seen t hid ho _ ih =>
    obtain ⟨front, t', hfront, -⟩ := run_bind_eq_ok.mp h
    cases levels with
    | zero => cases hfront
    | succ levels =>
      rcases run_object (g := g) (value g levels) id seen with
        ⟨number, hnumber, -⟩ | ⟨-, hnone, -⟩ | ⟨-, o', ho', hrun⟩
      · exact absurd (List.mem_of_getElem? hnumber) hid
      · rw [ho] at hnone
        cases hnone
      · rw [ho] at ho'
        cases ho'
        obtain ⟨back, t'', hback, -⟩ := run_bind_eq_ok.mp (hrun.symm.trans hfront)
        obtain ⟨bytes', hrun'⟩ := run_fields hback
        have hlt := ih hrun'
        omega

end Writer

/-! ## What has been read -/

/-- Values over a graph as they are read: they can be written, which meets all objects of the graph
in the order of their positions, and comes to nothing that is nested too deeply. -/
structure AsRead (g : Graph) (vs : List Value) : Prop where
  walk : g.Walk [] vs (List.range g.size)
  shallow : ∀ n seen w, g.Arrives [] vs n seen w → n ≤ maxDepth

lemma asRead_of_run {g : Graph} {vs : List Value} {bytes : List UInt8}
    (h : StateT.run (Writer.each (Writer.outermost g) vs) [] = .ok (bytes, List.range g.size)) :
    AsRead g vs where
  walk := by
    have hvisits := Writer.visits_each (l := vs) fun v _ => Writer.visits_value g (maxDepth + 1) v
    rw [List.flatMap_singleton'] at hvisits
    exact ((hvisits []).1 bytes _ h).walk
  shallow _ _ _ harrives := Nat.le_of_lt_succ (Writer.lt_of_arrives h harrives)

/-- **A value that has been read can be written.** -/
lemma asRead_of_value {g : Graph} {v : Value} {c c' : Cursor}
    (h : StateT.run (StateT.run GraphReader.outermost Graph.empty) c = .ok ((v, g), c')) :
    AsRead g [v] := by
  obtain ⟨bytes, -, -, hform⟩ := GraphReader.yields_value (maxDepth + 1) Graph.empty _ _ _ h
  obtain ⟨least, hrun, -⟩ := Form.value_rewritten .any g (maxDepth + 1) Graph.empty bytes v g hform
    (Graph.covers_self _ _)
  exact asRead_of_run (Writer.run_each_singleton hrun)

/-- **The values under names that have been read can be written.** -/
lemma asRead_of_named {g : Graph} {values : Named Value} {c c' : Cursor}
    (h : StateT.run (StateT.run (GraphReader.counted (GraphReader.named GraphReader.outermost))
      Graph.empty) c = .ok ((values, g), c')) : AsRead g (values.map Prod.snd) := by
  obtain ⟨bytes, -, -, hform⟩ := GraphReader.yields_counted (GraphReader.yields_named
    (GraphReader.yields_value (maxDepth + 1))) Graph.empty _ _ _ h
  obtain ⟨least, hrun, -⟩ := Form.Counted.rewritten (Form.Field.extends (Form.value_extends _))
    (Form.Field.rewritten (Form.value_rewritten .any g (maxDepth + 1))) Graph.empty bytes values g
    hform (Graph.covers_self _ _)
  obtain ⟨bytes', hrun'⟩ := Writer.run_fields hrun
  exact asRead_of_run hrun'

lemma Reader.exists_run_of_run {α : Type} {r : Reader α} {payload : List UInt8} {a : α}
    (h : r.run payload = .ok a) : ∃ c, StateT.run r (Cursor.start payload) = .ok (a, c) := by
  obtain ⟨⟨b, c⟩, hrun, hput⟩ := bind_eq_ok.mp h
  cases hput
  exact ⟨c, hrun⟩

end Wire

open Wire

lemma Returned.asRead_of_read {payload : List UInt8} {sent : Returned}
    (h : read.run payload = .ok sent) : AsRead sent.graph [sent.value] := by
  obtain ⟨c, hrun⟩ := Reader.exists_run_of_run h
  obtain ⟨⟨v, g⟩, c', hvalue, hput⟩ := run_bind_eq_ok.mp hrun
  cases hput
  exact asRead_of_value hvalue

lemma Request.exists_run_read_of_decode {v : ProtocolVersion} {payload : List UInt8} {r : Request}
    (h : decode v payload = .ok r) :
    ∃ c, StateT.run (read v) (Cursor.start payload) = .ok (r, c) := by
  rw [decode] at h
  split at h <;> cases h
  exact Reader.exists_run_of_run ‹_›

/-- A request has been read part by part. -/
lemma Request.exists_run_of_decode {v : ProtocolVersion} {payload : List UInt8} {r : Request}
    (h : decode v payload = .ok r) :
    ∃ c c' c'', StateT.run readKey (Cursor.start payload) = .ok (r.key, c) ∧
      StateT.run (Context.read v) c = .ok (r.context, c') ∧
      StateT.run readArguments c' = .ok (r.arguments, c'') := by
  obtain ⟨c, hrun⟩ := exists_run_read_of_decode h
  obtain ⟨key, t, hkey, hrun⟩ := run_bind_eq_ok.mp hrun
  obtain ⟨context, t', hcontext, hrun⟩ := run_bind_eq_ok.mp hrun
  obtain ⟨arguments, _, harguments, hput⟩ := run_bind_eq_ok.mp hrun
  cases hput
  exact ⟨t, t', c, hkey, hcontext, harguments⟩

lemma Request.asRead_of_decode {v : ProtocolVersion} {payload : List UInt8} {r : Request}
    (h : decode v payload = .ok r) :
    AsRead r.arguments.graph (r.arguments.values.map Prod.snd) := by
  obtain ⟨c, c', c'', -, -, harguments⟩ := exists_run_of_decode h
  obtain ⟨⟨values, g⟩, t, hvalues, hput⟩ := run_bind_eq_ok.mp harguments
  obtain ⟨ha, -⟩ := Prod.mk.inj (run_pure_eq_ok.mp hput)
  rw [ha]
  exact asRead_of_named hvalues

end RemoteCall
