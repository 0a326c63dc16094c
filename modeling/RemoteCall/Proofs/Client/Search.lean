/-
# Which candidate a pass ends with

A pass visits the candidates one after the other, in a circle that starts behind the one that
worked last.  A visit finds the candidate down, is refused, or takes a session, which ends the pass.
What a pass makes of its client is told by its visits alone.
-/
import Mathlib.Data.List.Rotate
import RemoteCall.Client.Search
import RemoteCall.Proofs.Client.Connected
import RemoteCall.Proofs.Client.OneSession

namespace RemoteCall

/-- What comes of a visit to a candidate. -/
inductive Finding
  /-- The probe takes it for down, and there is no attempt. -/
  | down
  /-- The attempt fails. -/
  | refused (failure : Failure)
  /-- The attempt succeeds. -/
  | took (session : Session)

/-- A visit to a candidate. -/
structure Visit where
  /-- The candidate. -/
  index : Nat
  /-- What comes of it. -/
  finding : Finding

namespace Visit

/-- What is asked in a visit, and the answers. -/
def inquiries : Visit → List (Nat × Answer)
  | ⟨i, .down⟩ => [(i, .probed false)]
  | ⟨i, .refused e⟩ => [(i, .probed true), (i, .attempted (.error e))]
  | ⟨i, .took s⟩ => [(i, .probed true), (i, .attempted (.ok s))]

/-- The session that a visit takes. -/
def session? : Visit → Option Session
  | ⟨_, .took s⟩ => some s
  | _ => none

end Visit

/-- The answers in a log are those that are given outside, each after what was found out before. -/
inductive Outside.Gave (o : Outside) : List Inquiry → Prop
  | nil : Gave o []
  | probed {log : List Inquiry} (f : Factory) (i : Nat) (h : Gave o log) :
      Gave o (log ++ [⟨f, i, .probed (o.probe log i)⟩])
  | attempted {log : List Inquiry} (f : Factory) (i : Nat) (h : Gave o log) :
      Gave o (log ++ [⟨f, i, .attempted (o.attempt log i)⟩])

/-- Some candidates are visited in order until a visit takes a session. -/
inductive Tour : List Nat → List Visit → Option Session → Prop
  /-- There are no more candidates. -/
  | nil : Tour [] [] none
  /-- A visit takes no session. -/
  | missed {rest : List Nat} {visits : List Visit} {session : Option Session} (v : Visit)
      (hv : v.session? = none) (h : Tour rest visits session) :
      Tour (v.index :: rest) (v :: visits) session
  /-- A visit takes a session. -/
  | took (i : Nat) (s : Session) (rest : List Nat) : Tour (i :: rest) [⟨i, .took s⟩] (some s)

namespace Tour

variable {indices : List Nat} {visits : List Visit} {session : Option Session} {s : Session}

lemma prefix_indices (h : Tour indices visits session) : visits.map Visit.index <+: indices := by
  induction h with
  | nil => exact List.prefix_rfl
  | missed v _ _ ih => exact List.cons_prefix_cons.mpr ⟨rfl, ih⟩
  | took i s rest => exact List.cons_prefix_cons.mpr ⟨rfl, List.nil_prefix⟩

/-- A tour that takes no session leaves out no candidate. -/
lemma of_none (h : Tour indices visits session) (hsession : session = none) :
    visits.map Visit.index = indices ∧ ∀ v ∈ visits, v.session? = none := by
  induction h with
  | nil => exact ⟨rfl, by simp⟩
  | missed v hv _ ih =>
    obtain ⟨hindices, hmissed⟩ := ih hsession
    exact ⟨congrArg _ hindices, List.forall_mem_cons.mpr ⟨hv, hmissed⟩⟩
  | took => cases hsession

/-- The last visit of a tour takes its session, and no visit before it does. -/
lemma of_some (h : Tour indices visits session) (hsession : session = some s) :
    ∃ missed i, visits = missed ++ [⟨i, .took s⟩] ∧ ∀ v ∈ missed, v.session? = none := by
  induction h with
  | nil => cases hsession
  | missed v hv _ ih =>
    obtain ⟨missed, i, rfl, hmissed⟩ := ih hsession
    exact ⟨v :: missed, i, rfl, List.forall_mem_cons.mpr ⟨hv, hmissed⟩⟩
  | took i s rest =>
    cases hsession
    exact ⟨[], i, rfl, by simp⟩

end Tour

namespace Factory

/-- A client after a visit. -/
def note (f : Factory) : Visit → Factory
  | ⟨i, .down⟩ => f.setStatus i .failed
  | ⟨i, .refused e⟩ => (f.setStatus i .connecting).noteFailure i e
  | ⟨i, .took s⟩ =>
    (((f.setStatus i .connecting).addSession s).place i s.id).setStatus i .connected

/-- A client after some visits. -/
def noteAll (f : Factory) (visits : List Visit) : Factory := visits.foldl note f

/-- The inquiries of a visit, with the client at the time of each. -/
def entries (f : Factory) : Visit → List Inquiry
  | ⟨i, .down⟩ => [⟨f, i, .probed false⟩]
  | ⟨i, .refused e⟩ =>
    [⟨f, i, .probed true⟩, ⟨f.setStatus i .connecting, i, .attempted (.error e)⟩]
  | ⟨i, .took s⟩ =>
    [⟨f, i, .probed true⟩, ⟨f.setStatus i .connecting, i, .attempted (.ok s)⟩]

/-- The inquiries of some visits. -/
def entriesAll (f : Factory) : List Visit → List Inquiry
  | [] => []
  | v :: rest => f.entries v ++ (f.note v).entriesAll rest

variable {f : Factory} {v : Visit} {visits : List Visit}

lemma candidates_note (f : Factory) (v : Visit) : (f.note v).candidates = f.candidates := by
  obtain ⟨i, _ | e | s⟩ := v <;> rfl

lemma count_note (f : Factory) (v : Visit) : (f.note v).count = f.count := by
  rw [count, count, candidates_note]

lemma candidateAt_note (f : Factory) (v : Visit) : (f.note v).candidateAt = f.candidateAt := by
  funext first offset
  rw [candidateAt, candidateAt, count_note]

lemma map_entries (f : Factory) (v : Visit) :
    (f.entries v).map (fun q => (q.index, q.answer)) = v.inquiries := by
  obtain ⟨i, _ | e | s⟩ := v <;> rfl

lemma map_entriesAll (f : Factory) (visits : List Visit) :
    (f.entriesAll visits).map (fun q => (q.index, q.answer)) = visits.flatMap Visit.inquiries := by
  induction visits generalizing f with
  | nil => rfl
  | cons v rest ih => rw [entriesAll, List.map_append, map_entries, ih, List.flatMap_cons]

/-! ## A pass as a list of visits -/

section Running

variable {o : Outside} (hrunning : ∀ log, o.running log = true)
include hrunning

/-- A pass of a client that is not stopped visits the candidate that it comes to. -/
lemma searchOver_cons (first offset : Nat) (rest : List Nat) {log : List Inquiry} (f : Factory)
    (hlog : o.Gave log) :
    ∃ v : Visit, v.index = f.candidateAt first offset ∧ o.Gave (log ++ f.entries v) ∧
      searchOver o first (offset :: rest) log f =
        match v.session? with
        | none => searchOver o first rest (log ++ f.entries v) (f.note v)
        | some s => ⟨some s, f.note v, log ++ f.entries v⟩ := by
  have hprobed := hlog.probed f (f.candidateAt first offset)
  cases hprobe : o.probe log (f.candidateAt first offset) with
  | false =>
    rw [hprobe] at hprobed
    refine ⟨⟨f.candidateAt first offset, .down⟩, rfl, hprobed, ?_⟩
    simp [searchOver, hrunning, hprobe, entries, note, Visit.session?]
  | true =>
    rw [hprobe] at hprobed
    have hattempted := hprobed.attempted (f.setStatus (f.candidateAt first offset) .connecting)
      (f.candidateAt first offset)
    rcases hattempt : o.attempt (log ++ [⟨f, f.candidateAt first offset, .probed true⟩])
      (f.candidateAt first offset) with e | s <;> rw [hattempt, List.append_assoc] at hattempted
    · refine ⟨⟨f.candidateAt first offset, .refused e⟩, rfl, hattempted, ?_⟩
      simp [searchOver, hrunning, hprobe, hattempt, entries, note, Visit.session?]
    · refine ⟨⟨f.candidateAt first offset, .took s⟩, rfl, hattempted, ?_⟩
      simp [searchOver, hrunning, hprobe, hattempt, entries, note, Visit.session?]

/-- **A pass is a tour**: its log and its client are those of some visits. -/
lemma exists_tour (first : Nat) (offsets : List Nat) {log : List Inquiry} (f : Factory)
    (hlog : o.Gave log) :
    ∃ visits, Tour (offsets.map (f.candidateAt first)) visits
        (searchOver o first offsets log f).session ∧
      (searchOver o first offsets log f).client = f.noteAll visits ∧
      (searchOver o first offsets log f).log = log ++ f.entriesAll visits ∧
      o.Gave (searchOver o first offsets log f).log := by
  induction offsets generalizing log f with
  | nil => exact ⟨[], .nil, rfl, (List.append_nil log).symm, hlog⟩
  | cons offset rest ih =>
    obtain ⟨v, hindex, hgave, hover⟩ := searchOver_cons hrunning first offset rest f hlog
    rw [List.map_cons, ← hindex, hover]
    obtain ⟨i, finding⟩ := v
    cases finding with
    | down | refused =>
      obtain ⟨visits, htour, hclient, hentries, hend⟩ := ih (f.note _) hgave
      rw [candidateAt_note] at htour
      exact ⟨_, .missed _ rfl htour, hclient, hentries.trans (List.append_assoc _ _ _), hend⟩
    | took s =>
      exact ⟨[⟨i, .took s⟩], .took i s _, rfl, by simp [Visit.session?, entriesAll], hgave⟩

end Running

/-! ### Answers that depend on nothing but the candidate -/

section Steady

variable (probe : String → Bool) (attempt : Nat → Except Failure Session)

/-- The client is not stopped, and neither the probe nor an attempt depends on what has been found
out before. -/
def steady (f : Factory) : Outside where
  running _ := true
  probe _ i := probe (f.candidates.getD i "")
  attempt _ := attempt

lemma searchOver_steady {f g : Factory} (h : f.candidates = g.candidates) (first : Nat)
    (offsets : List Nat) (log : List Inquiry) :
    ((searchOver (g.steady probe attempt) first offsets log f).session,
        (searchOver (g.steady probe attempt) first offsets log f).client) =
      passOver probe attempt first offsets f := by
  induction offsets generalizing f log with
  | nil => rfl
  | cons offset rest ih =>
    have hrunning (log : List Inquiry) : (g.steady probe attempt).running log = true := rfl
    have hprobe (log : List Inquiry) : (g.steady probe attempt).probe log
        (f.candidateAt first offset) =
          probe (f.candidates.getD (f.candidateAt first offset) "") := by
      rw [h]
      rfl
    have hattempt (log : List Inquiry) : (g.steady probe attempt).attempt log
        (f.candidateAt first offset) = attempt (f.candidateAt first offset) := rfl
    cases hup : probe (f.candidates.getD (f.candidateAt first offset) "") with
    | false =>
      simp only [searchOver, passOver, hrunning, hprobe, hup, Bool.not_true, Bool.not_false,
        Bool.false_eq_true, if_true, if_false]
      exact ih (f := f.setStatus _ .failed) h _
    | true =>
      rcases houtcome : attempt (f.candidateAt first offset) with e | s <;>
        simp only [searchOver, passOver, hrunning, hprobe, hup, hattempt, houtcome, Bool.not_true,
          Bool.false_eq_true, if_false]
      exact ih (f := (f.setStatus _ .connecting).noteFailure _ e) h _

/-- Then a pass is what it is without the questions. -/
theorem search_steady (f : Factory) :
    ((f.search (f.steady probe attempt)).session, (f.search (f.steady probe attempt)).client) =
      f.pass probe attempt :=
  searchOver_steady probe attempt rfl f.first (List.range f.count) []

end Steady

/-- The candidates in a circle that starts behind the one that worked last. -/
def circle (f : Factory) : List Nat :=
  (List.range f.count).rotate (f.lastIndex.elim 0 (· + 1))

lemma map_candidateAt (f : Factory) :
    (List.range f.count).map (f.candidateAt f.first) = f.circle := by
  have hfirst : f.first % f.count = f.lastIndex.elim 0 (· + 1) % f.count := by
    rw [first]
    cases f.lastIndex with
    | none => rfl
    | some i => exact Nat.mod_mod _ _
  refine List.ext_getElem (by simp [circle]) fun k hk hk' => ?_
  simp only [List.getElem_map, List.getElem_range, circle, List.getElem_rotate, List.length_range,
    candidateAt]
  rw [Nat.add_comm k, Nat.add_mod, hfirst, ← Nat.add_mod]

/-! ## What visits make of a client -/

/-- A visit that takes no session leaves its candidate failed, and nothing else changes. -/
lemma note_missed (hv : v.session? = none) :
    (f.note v).statuses = f.statuses.set v.index .failed ∧
      (f.note v).active = f.active ∧ (f.note v).lastIndex = f.lastIndex := by
  obtain ⟨i, _ | e | s⟩ := v
  · exact ⟨rfl, rfl, rfl⟩
  · exact ⟨List.set_set .., rfl, rfl⟩
  · cases hv

lemma note_took (f : Factory) (i : Nat) (s : Session) :
    (f.note ⟨i, .took s⟩).statuses = f.statuses.set i .connected ∧
      (f.note ⟨i, .took s⟩).active = some (i, s.id) ∧
      (f.note ⟨i, .took s⟩).lastIndex = some i :=
  ⟨List.set_set .., rfl, rfl⟩

lemma noteAll_missed (hmissed : ∀ v ∈ visits, v.session? = none) :
    (∀ j, (f.noteAll visits).statuses[j]? =
        if j ∈ visits.map Visit.index ∧ j < f.statuses.length then some .failed
        else f.statuses[j]?) ∧
      (f.noteAll visits).statuses.length = f.statuses.length ∧
      (f.noteAll visits).active = f.active ∧ (f.noteAll visits).lastIndex = f.lastIndex := by
  induction visits generalizing f with
  | nil => simp [noteAll]
  | cons v rest ih =>
    obtain ⟨hv, hrest⟩ := List.forall_mem_cons.mp hmissed
    obtain ⟨hstatuses, hactive, hlast⟩ := note_missed (f := f) hv
    obtain ⟨ihstatuses, ihlength, ihactive, ihlast⟩ := ih (f := f.note v) hrest
    have hlength : (f.note v).statuses.length = f.statuses.length := by
      rw [hstatuses, List.length_set]
    refine ⟨fun j => ?_, ihlength.trans hlength, ihactive.trans hactive, ihlast.trans hlast⟩
    rw [noteAll, List.foldl_cons, ← noteAll, ihstatuses, hlength, hstatuses, List.getElem?_set]
    by_cases hj : v.index = j
    · by_cases hlt : j < f.statuses.length <;> simp [hj, hlt]
    · have hj' : j ≠ v.index := fun h => hj h.symm
      simp [hj, hj']

/-- Each candidate has a status. -/
def Fits (f : Factory) : Prop := f.statuses.length = f.count

lemma Fits.note (h : f.Fits) (v : Visit) : (f.note v).Fits := by
  rw [Fits, count_note, ← h]
  obtain ⟨i, _ | e | s⟩ := v <;> simp [Factory.note, setStatus, noteFailure, addSession, place]

lemma Fits.noteAll (h : f.Fits) (visits : List Visit) : (f.noteAll visits).Fits := by
  induction visits generalizing f with
  | nil => exact h
  | cons v rest ih => exact ih (h.note v)

lemma idle_create {settings : ClientSettings} {registry : Registry}
    (hf : create settings registry = .ok f) : f.Fits ∧ f.Idle := by
  obtain ⟨-, -, hf⟩ := bind_eq_ok.mp hf
  obtain ⟨range, -, hf⟩ := bind_eq_ok.mp hf
  cases hf
  exact ⟨by simp [Fits, count], rfl, by simp [List.getElem?_replicate]⟩

/-! ## The main theorem -/

lemma noteAll_concat (f : Factory) (visits : List Visit) (v : Visit) :
    f.noteAll (visits ++ [v]) = (f.noteAll visits).note v := by
  rw [noteAll, List.foldl_append]
  rfl

/-- What a pass leaves that has taken a session in its last visit. -/
lemma noteAll_took (hmissed : ∀ v ∈ visits, v.session? = none) {i : Nat} {s : Session}
    (hnodup : (visits.map Visit.index ++ [i]).Nodup)
    (hlt : ∀ j ∈ visits.map Visit.index ++ [i], j < f.statuses.length) :
    let g := f.noteAll (visits ++ [⟨i, .took s⟩])
    g.active = some (i, s.id) ∧ g.lastIndex = some i ∧ g.statuses[i]? = some .connected ∧
      (∀ v ∈ visits, g.statuses[v.index]? = some .failed) ∧
      ∀ j, j ∉ visits.map Visit.index ++ [i] → g.statuses[j]? = f.statuses[j]? := by
  intro g
  obtain ⟨hstatuses, hlength, -, -⟩ := noteAll_missed (f := f) hmissed
  obtain ⟨hset, hactive, hlast⟩ := note_took (f.noteAll visits) i s
  have hg : g = (f.noteAll visits).note ⟨i, .took s⟩ := noteAll_concat f visits _
  rw [hg]
  refine ⟨hactive, hlast, ?_, fun v hv => ?_, fun j hj => ?_⟩
  · have hi : i < (f.noteAll visits).statuses.length := by
      rw [hlength]
      exact hlt i (by simp)
    rw [hset, List.getElem?_set_self hi]
  · have hmem : v.index ∈ visits.map Visit.index := List.mem_map_of_mem hv
    have hne : i ≠ v.index := by
      rintro rfl
      exact (List.nodup_append.mp hnodup).2.2 _ hmem _ (List.mem_singleton_self _) rfl
    rw [hset, List.getElem?_set_ne hne, hstatuses,
      if_pos ⟨hmem, hlt _ (List.mem_append_left _ hmem)⟩]
  · obtain ⟨hj', hne⟩ := not_or.mp fun h => hj (List.mem_append.mpr h)
    have hne' : i ≠ j := fun h => hne (List.mem_singleton.mpr h.symm)
    rw [hset, List.getElem?_set_ne hne', hstatuses, if_neg fun h => hj' h.1]

/-- **The first candidate that can be had.**  A pass of a client that is not stopped visits the
candidates in a circle that starts behind the one that worked last, none of them twice.  A candidate
that is down is not tried.  The pass ends with the first session that it is given, which becomes the
active one: its candidate is noted as connected, those before it as failed, and those behind it are
left alone.  A pass without a session has visited all candidates, and all have failed.  In passes
that are separated by losses of the active session, at most one candidate is noted as connected at
any time, and it is that of the active session, but for the time in which the loss of that session
is being noted: then no session is active. -/
theorem pass_selects_first (f : Factory) (hf : f.Fits) :
    (∀ o : Outside, (∀ log, o.running log = true) →
      (f.search o).client.Fits ∧ o.Gave (f.search o).log ∧ ∃ visits : List Visit,
        (f.search o).log.map (fun q => (q.index, q.answer)) = visits.flatMap Visit.inquiries ∧
        visits.map Visit.index <+: f.circle ∧ (visits.map Visit.index).Nodup ∧
        ((∃ missed i s, visits = missed ++ [⟨i, .took s⟩] ∧ (∀ v ∈ missed, v.session? = none) ∧
            (f.search o).session = some s ∧
            (f.search o).client.active = some (i, s.id) ∧
            (f.search o).client.lastIndex = some i ∧
            (f.search o).client.statuses[i]? = some .connected ∧
            (∀ v ∈ missed, (f.search o).client.statuses[v.index]? = some .failed) ∧
            ∀ j, j ∉ visits.map Visit.index →
              (f.search o).client.statuses[j]? = f.statuses[j]?) ∨
          ((∀ v ∈ visits, v.session? = none) ∧ (f.search o).session = none ∧
            visits.map Visit.index = f.circle ∧ f.circle.Perm (List.range f.count) ∧
            (f.search o).client.statuses = List.replicate f.count .failed ∧
            (f.search o).client.lastIndex = f.lastIndex ∧
            (f.search o).client.active = f.active))) ∧
    (f.Idle → ∀ steps : List ((String → Bool) × Supervision.Move),
      (∀ step ∈ steps, step.2 ≠ .stop) →
      let x := f.withoutTasks.runProbed steps
      ∀ i : Nat, x.factory.statuses[i]? = some .connected →
        (∀ j : Nat, x.factory.statuses[j]? = some .connected → j = i) ∧
        ((∃ id, x.factory.active = some (i, id)) ∨
          x.factory.active = none ∧ ∃ id, .failing id (some i) ∈ x.supervisors)) := by
  refine ⟨fun o ho => ?_, fun hidle steps hsteps => ?_⟩
  · obtain ⟨visits, htour, hclient, hlog, hgave⟩ :=
      exists_tour ho f.first (List.range f.count) f .nil
    rw [map_candidateAt] at htour
    have hfront := htour.prefix_indices
    have hperm : f.circle.Perm (List.range f.count) := List.rotate_perm _ _
    have hnodup : (visits.map Visit.index).Nodup :=
      hfront.sublist.nodup (hperm.nodup_iff.mpr List.nodup_range)
    have hlt : ∀ j ∈ visits.map Visit.index, j < f.statuses.length := by
      intro j hj
      rw [hf]
      exact List.mem_range.mp (hperm.mem_iff.mp (hfront.subset hj))
    refine ⟨by rw [search, hclient]; exact hf.noteAll visits, hgave, visits, ?_, hfront, hnodup, ?_⟩
    · rw [search, hlog, List.nil_append, map_entriesAll]
    rw [search, hclient]
    rcases hsession : (searchOver o f.first (List.range f.count) [] f).session with _ | s
    · obtain ⟨hall, hmissed⟩ := htour.of_none hsession
      obtain ⟨hfailed, -, hactive, hlast⟩ := noteAll_missed (f := f) hmissed
      refine Or.inr ⟨hmissed, rfl, hall, hperm, List.ext_getElem? fun j => ?_, hlast, hactive⟩
      rw [hfailed, List.getElem?_replicate, ← hf]
      by_cases hj : j < f.statuses.length
      · have hmem : j ∈ visits.map Visit.index := by
          rw [hall, hperm.mem_iff, List.mem_range, ← hf]
          exact hj
        rw [if_pos ⟨hmem, hj⟩, if_pos hj]
      · rw [if_neg fun h => hj h.2, if_neg hj, List.getElem?_eq_none (Nat.le_of_not_lt hj)]
    · obtain ⟨missed, i, rfl, hmissed⟩ := htour.of_some hsession
      rw [List.map_append] at hnodup hlt ⊢
      exact Or.inl ⟨missed, i, s, rfl, hmissed, rfl, noteAll_took hmissed hnodup hlt⟩
  · intro x i hi
    exact ((Supervision.steady_withoutTasks hidle).runProbed hsteps).connected hi

/-- The pass comes to a candidate that is down, to one that refuses and, round the circle, to the
one that worked last.  A session that is found there is lost, and the next one is found at the
second candidate. -/
theorem pass_selects_first_round_the_circle :
    let s : Session :=
      { id := "s", role := .client, remote := .v4 127 0 0 1 7300, version := some .newest
        state := .active }
    let f : Factory :=
      { settings := {}
        range := default
        candidates := ["127.0.0.1:7300", "127.0.0.1:7301", "127.0.0.1:7302"]
        calls := { correlator := { registry := {}, callTimeout := .ofMillis 30000 } }
        statuses := [.disconnected, .failed, .disconnected]
        lastIndex := some 0 }
    let o : Outside :=
      { running := fun _ => true
        probe := fun _ i => i != 1
        attempt := fun _ i => if i = 2 then .error .notConnected else .ok s }
    let down := fun address => address != "127.0.0.1:7301"
    let up := fun _ => true
    let go := Supervision.Move.stepSupervisor 0 true
    let steps : List ((String → Bool) × Supervision.Move) :=
      [(down, .start), (down, .stepStart 0), (down, .stepStart 0), (down, go), (down, go),
        (down, go), (down, .attempted 0 (.error .notConnected)), (down, go),
        (down, .attempted 0 (.ok s)), (down, go), (down, go), (up, .lose "s"), (up, go), (up, go),
        (up, go), (up, go), (up, go), (up, go), (up, .attempted 0 (.ok { s with id := "t" })),
        (up, go), (up, go)]
    f.Fits ∧ f.Idle ∧ (∀ log, o.running log = true) ∧ (∀ step ∈ steps, step.2 ≠ .stop) ∧
      (f.search o).session = some s ∧
      (f.search o).client.statuses = [.connected, .failed, .failed] ∧
      (∃ visits : List Visit,
        (f.search o).log.map (fun q => (q.index, q.answer)) = visits.flatMap Visit.inquiries ∧
        visits.map Visit.index <+: [1, 2, 0] ∧ (visits.map Visit.index).Nodup) ∧
      (f.withoutTasks.runProbed steps).factory.statuses =
        [.disconnected, .connected, .failed] ∧
      (f.withoutTasks.runProbed steps).factory.active = some (1, "t") ∧
      ∀ j : Nat, (f.withoutTasks.runProbed steps).factory.statuses[j]? = some .connected →
        j = 1 := by
  intro s f o down up go steps
  have hf : f.Fits := rfl
  have hidle : f.Idle := ⟨rfl, fun i hi => by
    have hmem := List.mem_of_getElem? hi
    revert hmem
    decide⟩
  have hrunning (log : List Inquiry) : o.running log = true := rfl
  have hsteps : ∀ step ∈ steps, step.2 ≠ .stop := by
    simp [steps, go]
  have hstatuses : (f.withoutTasks.runProbed steps).factory.statuses =
      [.disconnected, .connected, .failed] := by
    decide +kernel
  obtain ⟨hpass, hsteady⟩ := pass_selects_first f hf
  obtain ⟨-, -, visits, hlog, hfront, hnodup, -⟩ := hpass o hrunning
  have hconnected : (f.withoutTasks.runProbed steps).factory.statuses[1]? = some .connected := by
    rw [hstatuses]
    rfl
  have hone := (hsteady hidle steps hsteps 1 hconnected).1
  exact ⟨hf, hidle, hrunning, hsteps, by decide +kernel, by decide +kernel,
    ⟨visits, hlog, hfront, hnodup⟩, hstatuses, by decide +kernel, hone⟩

/-- The time in which a loss is noted cannot be left out: the place of the session is free already,
its calls are being given up, and the candidate is still noted as connected. -/
theorem connected_without_session :
    let x := Supervision.standard.run (fun _ => true) <|
      Supervision.begin 0 "s" ++
        [.lose "s", .stepSupervisor 0 true, .stepSupervisor 0 true]
    Supervision.standard.factory.Idle ∧ x.factory.running = true ∧
      x.supervisors = [.failing "s" (some 0)] ∧ x.factory.statuses = [.connected] ∧
      x.factory.active = none := by
  refine ⟨⟨rfl, fun i hi => ?_⟩, by decide +kernel⟩
  have hmem := List.mem_of_getElem? hi
  revert hmem
  decide

end Factory

end RemoteCall
