/-
# The entries of calls that wait

What each primitive step of a client does to the entries of its calls, to the outcomes that it has
reported and to its sessions.  An entry is taken out by its place, so that everything here rests on
no two entries having one place; a new entry puts out any other one of its place, which is why this
always holds.
-/
import Mathlib.Algebra.Group.Nat.Defs
import Mathlib.Data.List.Nodup
import Mathlib.Tactic.Lemma
import RemoteCall.Client.Correlator
import RemoteCall.Proofs.Sessions

namespace RemoteCall

namespace Calls

variable {x : Calls} {id : String} {key : CallKey} {t : Nat}

/-! ## Sessions -/

lemma session?_onSession (x : Calls) (id i : String) (f : Session → Session) :
    (x.onSession id f).session? i = if i = id then (x.session? i).map f else x.session? i :=
  Sessions.get?_modify x.sessions id i f

lemma session?_onSession_self {s : Session} (h : x.session? id = some s) (f : Session → Session) :
    (x.onSession id f).session? id = some (f s) := by
  rw [session?_onSession, if_pos rfl, h, Option.map_some]

lemma session?_onSession_of_ne {i : String} (h : i ≠ id) (f : Session → Session) :
    (x.onSession id f).session? i = x.session? i := by
  rw [session?_onSession, if_neg h]

/-! ## Entries of different places -/

/-- No two entries have one place. -/
def Keyed (x : Calls) : Prop := (x.correlator.pending.map Pending.key).Nodup

lemma Keyed.eq_of_key (hx : x.Keyed) {p q : Pending} (hp : p ∈ x.correlator.pending)
    (hq : q ∈ x.correlator.pending) (h : p.key = q.key) : p = q :=
  List.inj_on_of_nodup_map hx hp hq h

lemma Keyed.key_notMem (hx : x.Keyed) {p : Pending} (hp : p ∈ x.correlator.pending)
    {f : Pending → Bool} (hf : f p = false) :
    p.key ∉ (x.correlator.pending.filter f).map Pending.key := by
  intro hmem
  obtain ⟨q, hq, hkey⟩ := List.mem_map.mp hmem
  obtain ⟨hq, hfq⟩ := List.mem_filter.mp hq
  rw [hx.eq_of_key hq hp hkey, hf] at hfq
  cases hfq

lemma key_ne_of_mem_erase {c : Correlator} {p : Pending} (h : p ∈ (c.erase key).pending) :
    p.key ≠ key := by
  have h := (List.mem_filter.mp h).2
  simpa using h

/-- An entry that is taken out is the only one that goes. -/
lemma Keyed.perm_erase (hx : x.Keyed) {p : Pending} (hp : p ∈ x.correlator.pending) :
    x.correlator.pending.Perm (p :: (x.correlator.erase p.key).pending) := by
  -- leaving out a place is leaving out the one entry there
  have herase : (x.correlator.erase p.key).pending = x.correlator.pending.erase p := by
    rw [(List.Nodup.of_map Pending.key hx).erase_eq_filter]
    apply List.filter_congr
    intro q hq
    by_cases h : q = p
    · subst h
      rw [bne_self_eq_false, bne_self_eq_false]
    · have hkey : q.key ≠ p.key := fun hkey => h (hx.eq_of_key hq hp hkey)
      rw [bne_iff_ne.mpr hkey, bne_iff_ne.mpr h]
  rw [herase]
  exact List.perm_cons_erase hp

/-- What taking out the entry of a place does, if an entry is there. -/
lemma resolve_cases (x : Calls) (key : CallKey) (f : Pending → Outcome) :
    (x.resolve key f).2 = x ∧ (∀ p ∈ x.correlator.pending, p.key ≠ key) ∨
      ∃ p ∈ x.correlator.pending, p.key = key ∧
        (x.resolve key f).2 =
          ({ x with correlator := x.correlator.erase key }.onSession key.session
            Session.countDown).report p.ticket (f p) := by
  rcases h : x.correlator.find? key with _ | p
  · left
    constructor
    · simp only [resolve, take?, h, Option.map_none]
    · intro p hp
      simpa using List.find?_eq_none.mp h p hp
  · right
    refine ⟨p, List.mem_of_find?_eq_some h, by simpa using List.find?_some h, ?_⟩
    simp only [resolve, take?, h, Option.map_some]

lemma mem_pending_resolve {f : Pending → Outcome} {p : Pending}
    (h : p ∈ (x.resolve key f).2.correlator.pending) :
    p ∈ x.correlator.pending ∧ p.key ≠ key := by
  rcases x.resolve_cases key f with ⟨hy, hne⟩ | ⟨q, -, -, hy⟩
  · rw [hy] at h
    exact ⟨h, hne p h⟩
  · rw [hy] at h
    exact ⟨List.mem_of_mem_filter h, key_ne_of_mem_erase h⟩

lemma made_resolve (x : Calls) (key : CallKey) (f : Pending → Outcome) :
    (x.resolve key f).2.made = x.made := by
  rcases x.resolve_cases key f with ⟨hy, -⟩ | ⟨p, -, -, hy⟩
  · rw [hy]
  · rw [hy]
    rfl

lemma Keyed.erase (hx : x.Keyed) (key : CallKey) :
    ((x.correlator.erase key).pending.map Pending.key).Nodup :=
  List.Nodup.sublist (List.filter_sublist.map Pending.key) hx

lemma Keyed.resolve (hx : x.Keyed) (key : CallKey) (f : Pending → Outcome) :
    (x.resolve key f).2.Keyed := by
  rcases x.resolve_cases key f with ⟨hy, -⟩ | ⟨p, -, -, hy⟩
  · rwa [hy]
  · rw [hy]
    exact hx.erase key

/-- A new entry puts out any other one of its place. -/
lemma Keyed.enter (hx : x.Keyed) (p : Pending) :
    ({ x with correlator := x.correlator.enter p } : Calls).Keyed := by
  show ((x.correlator.erase p.key).pending ++ [p]).map Pending.key |>.Nodup
  rw [List.map_append, List.nodup_append]
  refine ⟨hx.erase p.key, List.nodup_singleton _, ?_⟩
  intro a ha b hb
  obtain ⟨q, hq, rfl⟩ := List.mem_map.mp ha
  rw [List.mem_singleton.mp hb]
  exact key_ne_of_mem_erase hq

/-! ## What becomes of one call -/

/-- The entries of a call. -/
def entriesOf (x : Calls) (t : Nat) : List Pending :=
  x.correlator.pending.filter fun p => p.ticket == t

/-- The outcomes that were reported for a call. -/
def outcomesOf (x : Calls) (t : Nat) : List Outcome :=
  (x.reported.filter fun r => r.1 == t).map Prod.snd

/-- A client that waits for no call and has reported none. -/
structure IsFresh (x : Calls) : Prop where
  pending : x.correlator.pending = []
  reported : x.reported = []

/-- A call waits: it has one entry, and no outcome was reported. -/
structure Waits (x : Calls) (p : Pending) : Prop where
  entry : x.entriesOf p.ticket = [p]
  silent : x.outcomesOf p.ticket = []

/-- A call has ended: it has no entry, and one outcome was reported. -/
structure Ended (x : Calls) (t : Nat) (o : Outcome) : Prop where
  gone : x.entriesOf t = []
  outcome : x.outcomesOf t = [o]

/-- A call is lost: it has no entry, and no outcome was reported. -/
structure Lost (x : Calls) (t : Nat) : Prop where
  gone : x.entriesOf t = []
  silent : x.outcomesOf t = []

lemma mem_entriesOf {p : Pending} :
    p ∈ x.entriesOf t ↔ p ∈ x.correlator.pending ∧ p.ticket = t := by
  rw [entriesOf, List.mem_filter, beq_iff_eq]

lemma Waits.mem {p : Pending} (h : x.Waits p) : p ∈ x.correlator.pending := by
  have hp : p ∈ x.entriesOf p.ticket := by
    rw [h.entry]
    exact List.mem_singleton_self p
  exact (mem_entriesOf.mp hp).1

lemma Waits.eq_of_ticket {p q : Pending} (h : x.Waits p) (hq : q ∈ x.correlator.pending)
    (ht : q.ticket = p.ticket) : q = p := by
  have hmem : q ∈ x.entriesOf p.ticket := mem_entriesOf.mpr ⟨hq, ht⟩
  rw [h.entry] at hmem
  exact List.mem_singleton.mp hmem

lemma Ended.ticket_ne {o : Outcome} (h : x.Ended t o) {q : Pending}
    (hq : q ∈ x.correlator.pending) : q.ticket ≠ t := by
  intro ht
  have hmem : q ∈ x.entriesOf t := mem_entriesOf.mpr ⟨hq, ht⟩
  rw [h.gone] at hmem
  exact List.not_mem_nil hmem

lemma outcomesOf_report_self (x : Calls) (t : Nat) (o : Outcome) :
    (x.report t o).outcomesOf t = x.outcomesOf t ++ [o] := by
  simp [outcomesOf, report]

lemma outcomesOf_report_of_ne {t' : Nat} (h : t' ≠ t) (o : Outcome) :
    (x.report t' o).outcomesOf t = x.outcomesOf t := by
  simp [outcomesOf, report, h]

lemma entriesOf_erase (x : Calls) (key : CallKey) (t : Nat) :
    ({ x with correlator := x.correlator.erase key } : Calls).entriesOf t =
      (x.entriesOf t).filter fun p => p.key != key :=
  List.filter_comm _ _ _

lemma Waits.resolve_of_ne {p : Pending} (h : x.Waits p) (hkey : p.key ≠ key)
    (f : Pending → Outcome) : (x.resolve key f).2.Waits p := by
  rcases x.resolve_cases key f with ⟨hy, -⟩ | ⟨q, hq, rfl, hy⟩
  · rwa [hy]
  · rw [hy]
    have ht : q.ticket ≠ p.ticket := fun ht => hkey (by rw [h.eq_of_ticket hq ht])
    constructor
    · refine (entriesOf_erase x q.key p.ticket).trans ?_
      rw [h.entry]
      simpa using hkey
    · exact (outcomesOf_report_of_ne ht _).trans h.silent

lemma Waits.resolve {p : Pending} (hx : x.Keyed) (h : x.Waits p) (f : Pending → Outcome) :
    (x.resolve p.key f).2.Ended p.ticket (f p) := by
  rcases x.resolve_cases p.key f with ⟨-, hne⟩ | ⟨q, hq, hkey, hy⟩
  · exact absurd rfl (hne p h.mem)
  · rw [hy, hx.eq_of_key hq h.mem hkey]
    constructor
    · refine (entriesOf_erase x p.key p.ticket).trans ?_
      rw [h.entry]
      simp
    · refine (outcomesOf_report_self _ _ _).trans ?_
      exact congrArg (· ++ [f p]) h.silent

lemma Ended.resolve {o : Outcome} (h : x.Ended t o) (key : CallKey) (f : Pending → Outcome) :
    (x.resolve key f).2.Ended t o := by
  rcases x.resolve_cases key f with ⟨hy, -⟩ | ⟨q, hq, -, hy⟩
  · rwa [hy]
  · rw [hy]
    constructor
    · refine (entriesOf_erase x key t).trans ?_
      rw [h.gone]
      rfl
    · exact (outcomesOf_report_of_ne (h.ticket_ne hq) _).trans h.outcome

/-! ## Clearing out -/

section Clear

variable {reason : ClearReason} {keys : List CallKey} {count : Nat}

/-- What taking out any entry preserves, clearing out any entries preserves. -/
lemma clearKeys_induction {P : Calls → Prop}
    (hP : ∀ x key, key ∈ keys → P x → P (x.resolve key reason.outcome).2) (hx : P x) :
    P (x.clearKeys reason keys count).2 := by
  induction keys generalizing x count with
  | nil => exact hx
  | cons key keys ih =>
    refine ih (fun y k hk => hP y k (List.mem_cons_of_mem _ hk)) ?_
    exact hP x key List.mem_cons_self hx

lemma made_clearKeys (x : Calls) (reason : ClearReason) (keys : List CallKey) (count : Nat) :
    (x.clearKeys reason keys count).2.made = x.made :=
  clearKeys_induction (P := fun y => y.made = x.made)
    (fun y key _ hy => (y.made_resolve key _).trans hy) rfl

lemma Waits.clearKeys_of_notMem {p : Pending} (h : x.Waits p) (hkey : p.key ∉ keys) :
    (x.clearKeys reason keys count).2.Waits p := by
  refine clearKeys_induction (P := fun y => y.Waits p) ?_ h
  intro y key hmem hy
  exact hy.resolve_of_ne (fun h => hkey (h ▸ hmem)) _

lemma Ended.clearKeys {o : Outcome} (h : x.Ended t o) :
    (x.clearKeys reason keys count).2.Ended t o :=
  clearKeys_induction (P := fun y => y.Ended t o) (fun _ key _ hy => hy.resolve key _) h

lemma Waits.clearKeys_of_mem {p : Pending} (hx : x.Keyed) (h : x.Waits p) (hkey : p.key ∈ keys) :
    (x.clearKeys reason keys count).2.Ended p.ticket (reason.outcome p) := by
  induction keys generalizing x count with
  | nil => exact absurd hkey List.not_mem_nil
  | cons key keys ih =>
    by_cases hne : p.key = key
    · -- the place may come again, but nothing waits there any more
      subst hne
      exact (h.resolve hx reason.outcome).clearKeys
    · refine ih (hx.resolve key _) (h.resolve_of_ne hne _) ?_
      exact (List.mem_cons.mp hkey).resolve_left hne

end Clear

end Calls

end RemoteCall
