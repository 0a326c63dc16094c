/-
# Which sessions a shutdown reaches

A shutdown lists the tracked sessions once, and tells these that they are over.  Meanwhile the
connections go on, and a session is tracked only after its handshake: one whose connection has not
come that far when the list is made is never told.
-/
import RemoteCall.Proofs.Server.Moves

namespace RemoteCall

/-- The shutdown has listed the tracked sessions. -/
def ShutdownStage.isListed : ShutdownStage → Bool
  | flagged _ => false
  | _ => true

namespace Server

variable {v : Server} {ms : List Move} {m : Move} {k : Nat} {stage : ShutdownStage} {id : String}

/-- A shutdown has listed the sessions tracked at some state of the run, and has told all of them
but those still on its list. -/
def Listed (v : Server) (ms : List Move) (k : Nat) (rest : List String) : Prop :=
  ∃ before after, ms = before ++ .stepShutdown k :: after ∧
    (∃ waits, (v.run before).shutdowns[k]? = some (.flagged waits)) ∧
    ∀ id ∈ (v.run before).tracker.tracked, id ∈ rest ∨ (v.run ms).Settled id

/-- A shutdown goes on, or other tasks do. -/
lemma Listed.concat {rest rest' : List String} (h : v.Listed ms k rest)
    (hsettled : ∀ id, (v.run ms).Settled id → (v.run (ms ++ [m])).Settled id)
    (hrest : ∀ id ∈ rest, id ∈ rest' ∨ (v.run (ms ++ [m])).Settled id) :
    v.Listed (ms ++ [m]) k rest' := by
  obtain ⟨before, after, rfl, hflagged, hids⟩ := h
  refine ⟨before, after ++ [m], by simp, hflagged, fun id hid => ?_⟩
  exact (hids id hid).elim (hrest id) fun hid => Or.inr (hsettled id hid)

/-- What a move has done to the stage of a shutdown. -/
lemma shutdown_next_cases (hk : (v.next m).shutdowns[k]? = some stage)
    (hstage : stage.isListed = true) :
    v.shutdowns[k]? = some stage ∨ m = .stepShutdown k ∧
      ((∃ waits, v.shutdowns[k]? = some (.flagged waits) ∧ stage = .telling v.tracker.tracked) ∨
        v.shutdowns[k]? = some (.telling []) ∧ stage = .returned ∨
        ∃ id ids, v.shutdowns[k]? = some (.telling (id :: ids)) ∧ stage = .telling ids ∧
          v.next m = { v with shutdowns := v.shutdowns.set k (.telling ids) }.tell id true) := by
  by_cases hshutdown : m = .shutdown
  · subst hshutdown
    have hk : (v.shutdowns ++ [ShutdownStage.flagged (!v.acceptorTaken)])[k]? = some stage := hk
    left
    rcases getElem?_concat_cases hk with hk | ⟨-, rfl⟩
    · exact hk
    · cases hstage
  by_cases hstep : ∃ j, m = .stepShutdown j
  · obtain ⟨j, rfl⟩ := hstep
    have hset : ∀ stage', (v.shutdowns.set j stage')[k]? = some stage →
        v.shutdowns[k]? = some stage ∨ j = k ∧ stage = stage' := by
      intro stage' hk
      by_cases hjk : j = k
      · subst hjk
        obtain ⟨hlt, -⟩ := List.getElem?_eq_some_iff.mp hk
        rw [List.length_set] at hlt
        rw [List.getElem?_set_self hlt] at hk
        cases hk
        exact Or.inr ⟨rfl, rfl⟩
      · rw [List.getElem?_set_ne hjk] at hk
        exact Or.inl hk
    rcases stepShutdown_cases v j with
      heq | ⟨waits, hj, -, heq⟩ | ⟨hj, heq⟩ | ⟨id, ids, hj, heq⟩ <;>
      simp only [next, heq, shutdowns_tell] at hk
    · exact Or.inl hk
    · rcases hset _ hk with hk | ⟨rfl, rfl⟩
      · exact Or.inl hk
      · exact Or.inr ⟨rfl, Or.inl ⟨waits, hj, rfl⟩⟩
    · rcases hset _ hk with hk | ⟨rfl, rfl⟩
      · exact Or.inl hk
      · exact Or.inr ⟨rfl, Or.inr (Or.inl ⟨hj, rfl⟩)⟩
    · rcases hset _ hk with hk | ⟨rfl, rfl⟩
      · exact Or.inl hk
      · exact Or.inr ⟨rfl, Or.inr (Or.inr ⟨id, ids, hj, rfl, heq⟩)⟩
  · rw [shutdowns_next hshutdown fun j hj => hstep ⟨j, hj⟩] at hk
    exact Or.inl hk

namespace IsNew

variable (hv : v.IsNew)

include hv

/-- **A shutdown that has made its list** has told all sessions that were tracked then, but for
those that are left on the list. -/
lemma listed_run (hnames : (ms.filterMap Move.newName?).Nodup)
    (hk : (v.run ms).shutdowns[k]? = some stage) (hstage : stage.isListed = true) :
    v.Listed ms k stage.ids := by
  induction ms using List.reverseRecOn generalizing stage with
  | nil =>
    rw [run, List.foldl_nil, hv.shutdowns] at hk
    cases hk
  | append_singleton ms m ih =>
    have hms : (ms.filterMap Move.newName?).Nodup := by
      rw [List.filterMap_append] at hnames
      exact (List.nodup_append.mp hnames).1
    have hsound := hv.sound_run hms
    have hsettled : ∀ id, (v.run ms).Settled id → (v.run (ms ++ [m])).Settled id :=
      fun id hid => (hv.precedes_run hnames).settled hid
    rw [run_concat] at hk
    rcases shutdown_next_cases hk hstage with hk | ⟨rfl, hlast⟩
    · exact (ih hms hk hstage).concat hsettled fun id hid => Or.inl hid
    rcases hlast with ⟨waits, hflagged, rfl⟩ | ⟨htelling, rfl⟩ | ⟨id, ids, htelling, rfl, heq⟩
    · exact ⟨ms, [], rfl, ⟨waits, hflagged⟩, fun id hid => Or.inl hid⟩
    · exact (ih hms htelling rfl).concat hsettled fun _ hj => absurd hj List.not_mem_nil
    · refine (ih hms htelling rfl).concat hsettled fun j hj => ?_
      rcases List.mem_cons.mp hj with rfl | hj
      · right
        rw [run_concat, heq]
        have hlist := mem_listed_of_shutdown htelling List.mem_cons_self
        have hsteps := hsound.steps_setShutdown k (.telling ids) fun i hi =>
          Or.inl (mem_listed_of_shutdown htelling (List.mem_cons_of_mem _ hi))
        exact hsteps.1.settled_tell (hsteps.2.opened (hsound.opened _ hlist)) (by simp)
      · exact Or.inl hj

end IsNew

/-! ## The main theorem -/

/-- **A shutdown tells whoever has got through the handshake.**  Once a shutdown has returned, every
session that is live and has not been told to disconnect belongs to a connection that was taken
after the sessions were listed, or that had not come further at that moment than to the end of its
handshake: it waited for the opening of the client or for the answer to be written, or its session
was active and not tracked yet. -/
theorem told_of_tracked_at_shutdown (hv : v.IsNew) {ms : List Move}
    (hnames : (ms.filterMap Move.newName?).Nodup) {k : Nat}
    (hk : (v.run ms).shutdowns[k]? = some .returned) :
    ∃ before after, ms = before ++ .stepShutdown k :: after ∧
      (∃ waits, (v.run before).shutdowns[k]? = some (.flagged waits)) ∧
      ∀ id s, Named.get? (v.run ms).sessions id = some s → s.IsLive → id ∉ (v.run ms).told →
        ∀ c ∈ (v.run before).connections, c.session = id →
          c.stage = .greeting ∨ (∃ hello reply, c.stage = .answering hello reply) ∨
            c.stage = .opened := by
  obtain ⟨before, after, rfl, hflagged, hids⟩ := hv.listed_run hnames hk rfl
  refine ⟨before, after, rfl, hflagged, fun id s hs hlive htold c hc hsession => ?_⟩
  have hbefore : (before.filterMap Move.newName?).Nodup := by
    rw [List.filterMap_append] at hnames
    exact (List.nodup_append.mp hnames).1
  have hover : s.state ≠ .disconnected := by
    rcases hlive with hstate | hstate <;> rw [hstate] <;> decide
  have huntracked : id ∉ (v.run before).tracker.tracked := by
    intro hid
    rcases (hids id hid).resolve_left List.not_mem_nil with hid | ⟨t, ht, hstate⟩
    · exact htold hid
    · rw [hs] at ht
      cases ht
      exact hover hstate
  have hkept : c.stage.isKept = false := by
    rw [← hsession, (hv.sound_run hbefore).mem_tracked hc] at huntracked
    simpa using huntracked
  rcases hstage : c.stage with _ | ⟨hello, reply⟩ | _ | _ | _ | _ | _
  case ended =>
    -- a connection that was over by then has left its session over, or without a handshake
    obtain ⟨c', hc', hsession', hstage'⟩ := (hv.precedes_run hnames).ended c hc hstage
    have hs' : Named.get? (v.run (before ++ .stepShutdown k :: after)).sessions c'.session =
        some s := by rw [hsession', hsession, hs]
    have hfits := (hv.sound_run hnames).fits c' hc' s hs'
    simp only [Connection.Fits, hstage'] at hfits
    rcases hfits with hstate | ⟨hstate, -⟩
    · exact absurd hstate hover
    · rcases hlive with h | h <;> rw [h] at hstate <;> cases hstate
  case greeting => exact Or.inl rfl
  case answering => exact Or.inr (Or.inl ⟨hello, reply, rfl⟩)
  case opened => exact Or.inr (Or.inr rfl)
  all_goals
    rw [hstage] at hkept
    cases hkept

/-- A shutdown lists the sessions while a second client waits for its answer.  That is written
before the shutdown returns, and the client sends a request afterwards. -/
def lateAnswer : List Move :=
  establish 0 "s" ++
    [.accept ⟨0⟩ "t" (.v4 127 0 0 1 9001), .greet ⟨0⟩ 1 opening, .shutdown, .endAccepting,
      .stepShutdown 0, .stepShutdown 0, .answered 1 true, .track 1, .checkHealth 1,
      .stepShutdown 0, .receive ⟨0⟩ 1 (.frame (.make .newest .request 7 [])), .begin 1 0]

theorem told_of_tracked_at_lateAnswer :
    (standard.run lateAnswer).shutdowns[0]? = some .returned ∧
      ∃ before after, lateAnswer = before ++ .stepShutdown 0 :: after ∧
        (∃ waits, (standard.run before).shutdowns[0]? = some (.flagged waits)) ∧
        ∀ id s, Named.get? (standard.run lateAnswer).sessions id = some s → s.IsLive →
          id ∉ (standard.run lateAnswer).told →
          ∀ c ∈ (standard.run before).connections, c.session = id →
            c.stage = .greeting ∨ (∃ hello reply, c.stage = .answering hello reply) ∨
              c.stage = .opened := by
  have hk : (standard.run lateAnswer).shutdowns[0]? = some .returned := by decide +kernel
  exact ⟨hk, told_of_tracked_at_shutdown isNew_standard (by decide +kernel) hk⟩

/-- The session of a client that waits for its answer meanwhile is not told, and its request is
handled after the shutdown has returned. -/
theorem untold_after_shutdown :
    (standard.run lateAnswer).shutdowns = [.returned] ∧ (standard.run lateAnswer).told = ["s"] ∧
      (Named.get? (standard.run lateAnswer).sessions "t").map Session.state = some .active ∧
      ((standard.run lateAnswer).connections[1]?).map (fun c => c.requests.map RequestTask.stage) =
        some [.running] := by
  decide +kernel

end Server

end RemoteCall
