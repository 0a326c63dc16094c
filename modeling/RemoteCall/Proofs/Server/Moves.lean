/-
# The moves of a server

A move of one connection turns that connection and its session, and nothing else of the server; the
other moves are about the tracker and the lists of tasks.  So there is one description of all moves
of connections, `turn_of_isLocal`, and a few lines for each of the others.
-/
import Mathlib.Data.List.Induction
import RemoteCall.Proofs.Server.Connections

namespace RemoteCall

/-! ## Sessions of connections -/

namespace Session

variable {s t : Session}

/-- A successful handshake makes a session ready. -/
lemma ready_openSession (hstate : s.state = .negotiating) (hversion : s.version = none)
    (hopen : s.queueOpen = true) (hello : Hello) (version : ProtocolVersion) :
    (Server.openSession s hello version).Ready ∧
      (Server.openSession s hello version).state = .active := by
  have hmay : SessionState.negotiating.mayBecome .active = true := rfl
  have h : Server.openSession s hello version =
      { s with version := some version, peer := s.peer.or (some hello.clientId)
               state := .active } := by
    simp [Server.openSession, perform, setVersion, settle, hversion, setPeer, moveTo, hstate, hmay]
  rw [h]
  exact ⟨⟨Nat.le_refl 2, Option.some_ne_none _, Or.inl hopen⟩, rfl⟩

/-- Only an active session is suspended. -/
lemma state_moveTo_suspending (h : (s.perform (.moveTo .suspending)).1.state = .suspending) :
    s.state = .suspending ∨ s.state = .active := by
  by_cases hmay : s.state.mayBecome .suspending = true
  · right
    revert hmay
    cases s.state <;> decide
  · left
    simpa [perform, moveTo, hmay] using h

end Session

namespace Serving

variable {w : Serving} {now : Duration} {incoming : Incoming}

/-- A reader goes on with its session, stops only when that is over, and suspends it only when the
client says so. -/
lemma receive_advances (w : Serving) (now : Duration) (incoming : Incoming) :
    w.session.Advances (w.receive now incoming).2.session ∧
      ((w.receive now incoming).1 = false →
        (w.receive now incoming).2.session.state = .disconnected) ∧
      ((w.receive now incoming).2.session.state = .suspending → w.session.state = .suspending ∨
        w.session.state = .active ∧ ∃ f, incoming = .frame f ∧ f.type = .suspend) := by
  have hclosed : ∀ s : Session, s.closed.state = .suspending → False := fun s h => by
    rw [s.state_closed] at h
    cases h
  cases incoming with
  | frame f =>
    have hread := Session.Advances.recordRead w.session now f.size
    rcases hf : f.type <;> simp only [receive, hf]
    case request | heartbeat =>
      exact ⟨hread.trans ⟨fun _ h => h, Nat.le_refl _, Or.inl rfl⟩, (fun h => by cases h), Or.inl⟩
    case suspend =>
      refine ⟨hread.trans (.perform _ _), (fun h => by cases h), fun h => ?_⟩
      exact (Session.state_moveTo_suspending h).imp_right fun h => ⟨h, f, rfl, hf⟩
    all_goals
      exact ⟨hread.trans (.closed _), fun _ => Session.state_closed _,
        fun h => (hclosed _ h).elim⟩
  | _ =>
    simp only [receive]
    exact ⟨.closed w.session, fun _ => w.session.state_closed, fun h => (hclosed _ h).elim⟩

/-- The session has the same state, version and reader of its queue. -/
def Same (w w' : Serving) : Prop :=
  w'.session.version = w.session.version ∧ w'.session.state = w.session.state ∧
    w'.session.queueOpen = w.session.queueOpen

lemma same_begin (w : Serving) (r : Nat) : w.Same (w.begin r) := by
  rcases w.begin_cases r with h | ⟨_, -, h⟩ <;> rw [h] <;> exact ⟨rfl, rfl, rfl⟩

lemma same_finish (d : Dispatcher) (w : Serving) (r : Nat) (outcome : HandlerOutcome) :
    w.Same (w.finish d r outcome) := by
  have hpass : w.Same (w.pass d r outcome) := by
    rcases w.pass_cases d r outcome with h | ⟨_, -, h⟩ <;> rw [h] <;> exact ⟨rfl, rfl, rfl⟩
  obtain ⟨hversion, hstate, hopen⟩ := hpass
  rw [finish]
  rcases (w.pass d r outcome).enqueue_cases r with
    h | ⟨_, _, -, -, ⟨-, h⟩ | ⟨-, h⟩⟩ <;> rw [Same, h]
  all_goals exact ⟨hversion, hstate, hopen⟩

lemma same_retire (w : Serving) (r : Nat) : w.Same (w.retire r) := by
  rcases w.retire_cases r with ⟨h, -⟩ | ⟨_, -, h⟩ <;> rw [h] <;> exact ⟨rfl, rfl, rfl⟩

end Serving

/-- The drain in another stage. -/
def Drain.goTo (d : Drain) (stage : DrainStage) : Drain := { d with stage }

/-- The session, if the drain has told it on its way to a stage that it is over. -/
def Drain.tells (d : Drain) (stage : DrainStage) : List String :=
  match d.stage, stage with
  | .parting _, .lingering _ => [d.session]
  | _, _ => []

namespace Server

variable {v v' : Server} {i : Nat} {c c' : Connection} {s t : Session} {id : String} {m : Move}

/-! ## Moves of one connection -/

/-- The client of a session suspends it. -/
def Suspends (v : Server) (m : Move) (id : String) : Prop :=
  ∃ now i f c s, m = .receive now i (.frame f) ∧ f.type = .suspend ∧
    v.connections[i]? = some c ∧ c.stage = .established ∧ c.session = id ∧
    Named.get? v.sessions id = some s ∧ s.state = .active

/-- A turn that a connection takes by itself.  The health of the server has been looked at when the
connection is established, and it is its client that suspends the session. -/
structure LocalTurn (v : Server) (m : Move) (i : Nat) (c c' : Connection) (s t : Session) : Prop
    extends v.Turn i c c' s t where
  kept : c'.stage.isKept = c.stage.isKept
  established : c'.stage = .established → c.stage = .established
  quiet : t.state = .suspending → s.state = .suspending ∨ v.Suspends m c.session

/-- The move is one of a connection, its requests, its watch over silence or its writer, apart from
those that have to do with the tracker. -/
def Move.isLocal : Move → Bool
  | .greet .. | .answered .. | .receive .. | .notice _ | .begin .. | .finish .. | .retire ..
  | .look .. | .write .. => true
  | _ => false

/-- What a local move does: nothing, or a turn of one connection. -/
def Takes (v : Server) (m : Move) (v' : Server) : Prop :=
  v' = v ∨ ∃ i c c' s t, v.LocalTurn m i c c' s t ∧ v' = v.turn i c' t

namespace Sound

variable (h : v.Sound)

include h

lemma onSession_setConnection (hs : Named.get? v.sessions c.session = some s)
    {f : Session → Session} (hc' : c'.session = c.session) :
    (v.onSession c.session f).setConnection i c' = v.turn i c' (f s) := by
  rw [turn, hc', onSession, setConnection, Sessions.modify_eq_of_get? h.nodup hs]

lemma setConnection_eq (hs : Named.get? v.sessions c.session = some s)
    (hc' : c'.session = c.session) : v.setConnection i c' = v.turn i c' s := by
  rw [turn, hc', Sessions.modify_self h.nodup hs, setConnection]

lemma onSession_eq (hc : v.connections[i]? = some c)
    (hs : Named.get? v.sessions c.session = some s) (f : Session → Session) :
    v.onSession c.session f = v.turn i c (f s) := by
  have hset : v.connections.set i c = v.connections := by
    obtain ⟨hlt, rfl⟩ := List.getElem?_eq_some_iff.mp hc
    exact List.set_getElem_self hlt
  rw [turn, hset, onSession, Sessions.modify_eq_of_get? h.nodup hs]

omit h in
lemma takes_turn (hc : v.connections[i]? = some c) (hs : Named.get? v.sessions c.session = some s)
    (hsame : c'.session = c.session) (hfits : c'.Fits t) (hrank : s.state.rank ≤ t.state.rank)
    (hended : c.stage = .ended → c'.stage = .ended) (hkept : c'.stage.isKept = c.stage.isKept)
    (hestablished : c'.stage = .established → c.stage = .established)
    (hquiet : t.state = .suspending → s.state = .suspending ∨ v.Suspends m c.session) :
    v.Takes m (v.turn i c' t) :=
  Or.inr ⟨i, c, c', s, t, ⟨⟨hc, hs, hsame, hfits, hrank, hended⟩, hkept, hestablished, hquiet⟩, rfl⟩

omit h in
/-- The session of a connection may end together with it. -/
lemma takes_end (hc : v.connections[i]? = some c) (hs : Named.get? v.sessions c.session = some s)
    (hkept : c.stage.isKept = false) (ht : t.state = .disconnected) :
    v.Takes m (v.turn i { c with stage := .ended } t) := by
  refine takes_turn hc hs rfl (Or.inl ht) ?_ (fun _ => rfl) hkept.symm (by simp) fun h => ?_
  · rw [ht]
    cases s.state <;> decide
  · rw [ht] at h
    cases h

omit h in
/-- A handshake may fail without an end of the session. -/
lemma takes_failure (hc : v.connections[i]? = some c)
    (hs : Named.get? v.sessions c.session = some s) (hkept : c.stage.isKept = false)
    (hwriter : c.writer = none) (hstate : s.state = .negotiating) (ht : t.state = s.state) :
    v.Takes m (v.turn i { c with stage := .ended } t) :=
  takes_turn hc hs rfl (Or.inr ⟨ht.trans hstate, hwriter⟩) (Nat.le_of_eq (by rw [ht]))
    (fun _ => rfl) hkept.symm (by simp) fun h => Or.inl (ht.symm.trans h)

lemma takes_greet (hc : v.connections[i]? = some c) (hstage : c.stage = .greeting)
    (now : Duration) (incoming : Incoming) : v.Takes m (v.greet now i c incoming) := by
  obtain ⟨s, hs⟩ := h.exists_session (List.mem_of_getElem? hc)
  have hfits := h.fits c (List.mem_of_getElem? hc) s hs
  simp only [Connection.Fits, hstage] at hfits
  obtain ⟨hstate, hversion, hopen, hwriter⟩ := hfits
  have hkept : c.stage.isKept = false := by
    rw [hstage]
    rfl
  cases incoming with
  | frame f =>
    simp only [greet]
    split <;> rw [h.onSession_setConnection hs]
    · exact takes_failure hc hs hkept hwriter hstate (by rfl)
    · rfl
    · refine takes_turn hc hs rfl ⟨hstate, hversion, hopen, hwriter⟩ (Nat.le_refl _) ?_ hkept.symm
        (by simp) Or.inl
      simp [hstage]
    · rfl
  | _ =>
    simp only [greet]
    rw [h.onSession_setConnection hs]
    · exact takes_end hc hs hkept s.state_closed
    · rfl

lemma takes_answered {hello : Hello} {reply : Reply} (hc : v.connections[i]? = some c)
    (hstage : c.stage = .answering hello reply) (written : Bool) :
    v.Takes m (v.answered i c hello reply written) := by
  obtain ⟨s, hs⟩ := h.exists_session (List.mem_of_getElem? hc)
  have hfits := h.fits c (List.mem_of_getElem? hc) s hs
  simp only [Connection.Fits, hstage] at hfits
  obtain ⟨hstate, hversion, hopen, hwriter⟩ := hfits
  have hkept : c.stage.isKept = false := by
    rw [hstage]
    rfl
  cases written with
  | false =>
    simp only [answered]
    rw [Bool.not_false, if_pos rfl, h.setConnection_eq hs]
    · exact takes_failure hc hs hkept hwriter hstate rfl
    · rfl
  | true =>
    cases reply with
    | rejected range =>
      simp only [answered, Bool.not_true, if_neg Bool.false_ne_true]
      rw [h.onSession_setConnection hs]
      · exact takes_end hc hs hkept s.state_closed
      · rfl
    | accepted version range server =>
      obtain ⟨hready, hactive⟩ := Session.ready_openSession hstate hversion hopen hello version
      simp only [answered, Bool.not_true, if_neg Bool.false_ne_true]
      rw [h.onSession_setConnection hs]
      · refine takes_turn hc hs rfl ⟨hready, {}, rfl, fun hstop => by cases hstop⟩ ?_ ?_ hkept.symm
          (by simp) fun h => ?_
        · rw [hstate, hactive]
          decide
        · simp [hstage]
        · rw [hactive] at h
          cases h
      · rfl

lemma takes_receive (hc : v.connections[i]? = some c) (hstage : c.stage = .established)
    (now : Duration) (incoming : Incoming) :
    v.Takes (.receive now i incoming) (v.receive now i c incoming) := by
  obtain ⟨s, hs⟩ := h.exists_session (List.mem_of_getElem? hc)
  have hfits := h.fits c (List.mem_of_getElem? hc) s hs
  have hrank : 2 ≤ s.state.rank := hfits.rank_of_isKept (by rw [hstage]; rfl)
  obtain ⟨hadvances, hover, hquiet⟩ :=
    Serving.receive_advances { session := s, requests := c.requests } now incoming
  simp only [receive, hs]
  rcases hr : Serving.receive { session := s, requests := c.requests } now incoming
    with ⟨goesOn, w⟩
  simp only [hr] at hadvances hover hquiet ⊢
  have hquiet' : w.session.state = .suspending →
      s.state = .suspending ∨ v.Suspends (.receive now i incoming) c.session := by
    intro hsuspending
    rcases hquiet hsuspending with hs' | ⟨hactive, f, rfl, hf⟩
    · exact Or.inl hs'
    · exact Or.inr ⟨now, i, f, c, s, rfl, hf, hc, hstage, rfl, hs, hactive⟩
  rw [h.onSession_setConnection hs]
  · cases goesOn with
    | true =>
      have hnext := hfits.advances hrank hadvances
      simp only [Connection.Fits, hstage] at hnext
      exact takes_turn hc hs rfl hnext hadvances.rank (by simp [hstage]) (by simp [hstage])
        (fun _ => hstage) hquiet'
    | false =>
      exact takes_turn hc hs rfl (hover rfl) hadvances.rank (by simp [hstage])
        (by simp [hstage, ConnectionStage.isKept]) (by simp) hquiet'
  · rfl

lemma takes_notice (hc : v.connections[i]? = some c) (hstage : c.stage = .established) :
    v.Takes m (v.notice i c) := by
  obtain ⟨s, hs⟩ := h.exists_session (List.mem_of_getElem? hc)
  simp only [notice, hs]
  split
  · rename_i hover
    rw [h.setConnection_eq hs]
    · exact takes_turn hc hs rfl ((SessionState.isTerminal_iff _).mp hover) (Nat.le_refl _)
        (by simp [hstage]) (by simp [hstage, ConnectionStage.isKept]) (by simp) Or.inl
    · rfl
  · exact Or.inl rfl

/-- The tasks of the requests of a connection leave its session as far as it is. -/
lemma takes_onRequests (i : Nat) {f : Serving → Serving} (hf : ∀ w : Serving, w.Same (f w)) :
    v.Takes m (v.onRequests i f) := by
  rcases hc : v.connections[i]? with _ | c
  · exact Or.inl (by simp only [onRequests, hc])
  obtain ⟨s, hs⟩ := h.exists_session (List.mem_of_getElem? hc)
  have hfits := h.fits c (List.mem_of_getElem? hc) s hs
  obtain ⟨hversion, hstate, hopen⟩ := hf { session := s, requests := c.requests }
  simp only [onRequests, hc, hs]
  rw [h.onSession_setConnection hs]
  · exact takes_turn hc hs rfl (hfits.congr hversion hstate hopen) (Nat.le_of_eq (by rw [hstate]))
      (fun h => h) rfl (fun h => h) fun h => Or.inl (hstate.symm.trans h)
  · rfl

/-- A task may use an open session in any way that does not suspend it. -/
lemma takes_advance (hc : v.connections[i]? = some c)
    (hs : Named.get? v.sessions c.session = some s) (hrank : 2 ≤ s.state.rank)
    (ht : s.Advances t) (hkeeps : s.KeepsState t) : v.Takes m (v.turn i c t) := by
  have hfits := h.fits c (List.mem_of_getElem? hc) s hs
  refine takes_turn hc hs rfl (hfits.advances hrank ht) ht.rank (fun h => h) rfl (fun h => h)
    fun h => ?_
  rcases hkeeps with hstate | hstate <;> rw [hstate] at h
  · exact Or.inl h
  · cases h

lemma takes_look (now : Duration) (hc : v.connections[i]? = some c) :
    v.Takes m (v.onSession c.session (v.keepAlive.look now)) := by
  obtain ⟨s, hs⟩ := h.exists_session (List.mem_of_getElem? hc)
  rcases v.keepAlive.look_cases now s with heq | ⟨hwatches, hlook⟩
  · left
    rw [onSession, Sessions.modify_eq_of_get? h.nodup hs, heq, Sessions.modify_self h.nodup hs]
  · have hrank : 2 ≤ s.state.rank := by
      revert hwatches
      cases s.state <;> decide
    rw [h.onSession_eq hc hs]
    rcases hlook with heq | ⟨t, hsend, heq⟩ <;> rw [heq]
    · exact h.takes_advance hc hs hrank (.closed s) (.closed s)
    · exact h.takes_advance hc hs hrank (.sendControl hsend)
        (Session.keepsState_sendControl hsend)

lemma takes_write (i : Nat) (now : Duration) (outcome : WriteOutcome) :
    v.Takes m (v.stepWriter now i outcome) := by
  rcases hc : v.connections[i]? with _ | c
  · exact Or.inl (by simp only [stepWriter, hc])
  obtain ⟨s, hs⟩ := h.exists_session (List.mem_of_getElem? hc)
  have hfits := h.fits c (List.mem_of_getElem? hc) s hs
  rcases hw : c.writer with _ | w
  · exact Or.inl (by simp only [stepWriter, hc, hw])
  have hkeeps := w.keepsState_step now s outcome
  obtain ⟨hpasses, hheeds⟩ := w.step_passes (hfits.heeds hw).2 now outcome
  have hadvances := Session.Advances.of_passes hpasses hkeeps.rank_le
  simp only [stepWriter, hc, hw, hs]
  rw [h.onSession_setConnection hs]
  · refine takes_turn hc hs rfl (hfits.write hw hadvances hheeds) hadvances.rank (fun h => h) rfl
      (fun h => h) fun h => ?_
    rcases hkeeps with hstate | hstate <;> rw [hstate] at h
    · exact Or.inl h
    · cases h
  · rfl

/-- **What the moves of a connection do.** -/
lemma takes_of_isLocal (hm : m.isLocal = true) : v.Takes m (v.next m) := by
  cases m with
  | greet now i incoming =>
    simp only [next]
    split
    · split
      · exact h.takes_greet ‹_› ‹_› now incoming
      · exact Or.inl rfl
    · exact Or.inl rfl
  | answered i written =>
    simp only [next]
    split
    · split
      · exact h.takes_answered ‹_› ‹_› written
      · exact Or.inl rfl
    · exact Or.inl rfl
  | receive now i incoming =>
    simp only [next]
    split
    · split
      · exact h.takes_receive ‹_› ‹_› now incoming
      · exact Or.inl rfl
    · exact Or.inl rfl
  | notice i =>
    simp only [next]
    split
    · split
      · exact h.takes_notice ‹_› ‹_›
      · exact Or.inl rfl
    · exact Or.inl rfl
  | begin i r =>
    simp only [next]
    split
    · exact h.takes_onRequests i (fun w => w.same_begin r)
    · exact Or.inl rfl
  | finish i r outcome =>
    exact h.takes_onRequests i (fun w => Serving.same_finish v.dispatcher w r outcome)
  | retire i r => exact h.takes_onRequests i (fun w => w.same_retire r)
  | look now i =>
    simp only [next]
    split
    · exact h.takes_look now ‹_›
    · exact Or.inl rfl
  | write now i outcome => exact h.takes_write i now outcome
  | _ => cases hm

end Sound

/-! ## Later states -/

/-- What stays when a server goes on: who has been told, how far the sessions have come, and the
ends of connections. -/
structure Precedes (v v' : Server) : Prop where
  told : ∀ id ∈ v.told, id ∈ v'.told
  sessions : ∀ id s, Named.get? v.sessions id = some s →
    ∃ t, Named.get? v'.sessions id = some t ∧ s.state.rank ≤ t.state.rank
  ended : ∀ c ∈ v.connections, c.stage = .ended →
    ∃ c' ∈ v'.connections, c'.session = c.session ∧ c'.stage = .ended

namespace Precedes

lemma of_eq (hconnections : v'.connections = v.connections) (hsessions : v'.sessions = v.sessions)
    (htold : v'.told = v.told) : v.Precedes v' := by
  refine ⟨fun id hid => ?_, fun id s hs => ⟨s, ?_, Nat.le_refl _⟩,
    fun c hc hstage => ⟨c, ?_, rfl, hstage⟩⟩
  · rwa [htold]
  · rwa [hsessions]
  · rwa [hconnections]

lemma refl (v : Server) : v.Precedes v := of_eq rfl rfl rfl

lemma trans {v'' : Server} (h : v.Precedes v') (h' : v'.Precedes v'') : v.Precedes v'' := by
  refine ⟨fun id hid => h'.told id (h.told id hid), fun id s hs => ?_, fun c hc hstage => ?_⟩
  · obtain ⟨t, ht, hrank⟩ := h.sessions id s hs
    obtain ⟨u, hu, hrank'⟩ := h'.sessions id t ht
    exact ⟨u, hu, Nat.le_trans hrank hrank'⟩
  · obtain ⟨c', hc', hsession, hstage'⟩ := h.ended c hc hstage
    obtain ⟨c'', hc'', hsession', hstage''⟩ := h'.ended c' hc' hstage'
    exact ⟨c'', hc'', hsession'.trans hsession, hstage''⟩

lemma of_turn (ht : v.Turn i c c' s t) (hconnections : v'.connections = (v.turn i c' t).connections)
    (hsessions : v'.sessions = (v.turn i c' t).sessions) (htold : ∀ id ∈ v.told, id ∈ v'.told) :
    v.Precedes v' := by
  refine ⟨htold, fun id u hu => ?_, fun a ha hstage => ?_⟩
  · rw [hsessions, ht.get?_turn]
    split
    · rename_i hid
      rw [hid, ht.session] at hu
      cases hu
      exact ⟨t, rfl, ht.rank⟩
    · exact ⟨u, hu, Nat.le_refl _⟩
  · rw [hconnections]
    by_cases hac : a = c
    · subst hac
      exact ⟨c', ht.mem_turn, ht.same, ht.ended hstage⟩
    · exact ⟨a, ht.mem_turn_of_ne ha hac, rfl, hstage⟩

lemma opened (h : v.Precedes v') (hid : v.Opened id) : v'.Opened id := by
  obtain ⟨s, hs, hrank⟩ := hid
  obtain ⟨t, ht, hle⟩ := h.sessions id s hs
  exact ⟨t, ht, Nat.le_trans hrank hle⟩

end Precedes

/-- Nothing more is to be told to a session: it has been told that it is over, or it is over. -/
def Settled (v : Server) (id : String) : Prop :=
  id ∈ v.told ∨ ∃ s, Named.get? v.sessions id = some s ∧ s.state = .disconnected

lemma Precedes.settled (h : v.Precedes v') (hid : v.Settled id) : v'.Settled id := by
  rcases hid with hid | ⟨s, hs, hover⟩
  · exact Or.inl (h.told id hid)
  · obtain ⟨t, ht, hrank⟩ := h.sessions id s hs
    rw [hover] at hrank
    exact Or.inr ⟨t, ht, Session.state_of_rank hrank⟩

/-! ## All moves -/

/-- The server stays sound and goes on. -/
def Steps (v v' : Server) : Prop := v'.Sound ∧ v.Precedes v'

namespace Sound

variable (h : v.Sound)

include h

/-- A change of lists that no connection and no session is concerned with. -/
lemma steps_of_eq (hconnections : v'.connections = v.connections)
    (hsessions : v'.sessions = v.sessions) (htracked : v'.tracker.tracked = v.tracker.tracked)
    (htold : v'.told = v.told)
    (hlisted : ∀ id ∈ v'.listed, id ∈ v.listed ∨ id ∈ v.tracker.tracked) : v.Steps v' :=
  ⟨h.of_eq hconnections hsessions htracked hlisted, .of_eq hconnections hsessions htold⟩

/-- A turn of a connection, with changes of lists. -/
lemma steps_of_turn (ht : v.Turn i c c' s t) (hkept : c'.stage.isKept = c.stage.isKept)
    (hconnections : v'.connections = (v.turn i c' t).connections)
    (hsessions : v'.sessions = (v.turn i c' t).sessions)
    (htracked : v'.tracker.tracked = v.tracker.tracked) (htold : ∀ id ∈ v.told, id ∈ v'.told)
    (hlisted : ∀ id ∈ v'.listed, id ∈ v.listed) : v.Steps v' := by
  refine ⟨h.of_turn ht hconnections hsessions (fun id => ?_) fun id hid => Or.inl (hlisted id hid),
    .of_turn ht hconnections hsessions htold⟩
  rw [htracked]
  split
  · rename_i hid
    rw [hid, h.mem_tracked ht.mem, hkept]
  · rfl

lemma steps_of_takes (ht : v.Takes m v') : v.Steps v' := by
  rcases ht with rfl | ⟨i, c, c', s, t, ht, rfl⟩
  · exact ⟨h, .refl v'⟩
  · exact h.steps_of_turn ht.toTurn ht.kept rfl rfl rfl (fun _ hid => hid) fun _ hid => hid

omit h in
lemma accept_eq (haccepting : v.accepting = true) (now : Duration) (id : String)
    (remote : SocketAddress) :
    ∃ s : Session, s.id = id ∧ s.state = .negotiating ∧ s.version = none ∧ s.queueOpen = true ∧
      v.accept now id remote = { v with
        sessions := v.sessions.add s
        connections := v.connections ++ [{ session := id }] } :=
  ⟨_, rfl, rfl, rfl, rfl, if_pos haccepting⟩

/-- A connection that is taken gets a session of its own. -/
lemma steps_accept (now : Duration) (hid : id ∉ Named.names v.sessions) (remote : SocketAddress) :
    v.Steps (v.accept now id remote) := by
  by_cases haccepting : v.accepting = true
  · obtain ⟨s, rfl, hstate, hversion, hopen, heq⟩ := accept_eq haccepting now id remote
    have hsessions : v.sessions.add s = v.sessions ++ [(s.id, s)] := Named.put_of_notMem hid s
    rw [heq, hsessions]
    have hget : ∀ j t, Named.get? v.sessions j = some t →
        Named.get? (v.sessions ++ [(s.id, s)]) j = some t := by
      intro j t ht
      rw [Named.get?_append, ht, Option.some_or]
    have hprecedes : v.Precedes { v with
        sessions := v.sessions ++ [(s.id, s)]
        connections := v.connections ++ [{ session := s.id }] } :=
      ⟨fun j hj => hj, fun j t ht => ⟨t, hget j t ht, Nat.le_refl _⟩,
        fun c hc hstage => ⟨c, List.mem_append_left _ hc, rfl, hstage⟩⟩
    refine ⟨⟨?_, ?_, fun c hc t ht => ?_, fun j => ?_,
      fun j hj => hprecedes.opened (h.opened j hj)⟩, hprecedes⟩
    · simp only [Named.names, List.map_append, List.map_cons, List.map_nil]
      exact congrArg (· ++ [s.id]) h.names
    · simp only [Named.names, List.map_append, List.map_cons, List.map_nil]
      exact List.nodup_append.mpr ⟨h.nodup, List.nodup_singleton _, fun a ha b hb => by
        rw [List.mem_singleton] at hb
        rintro rfl
        exact hid (hb ▸ ha)⟩
    · rcases List.mem_append.mp hc with hc | hc
      · obtain ⟨t', ht'⟩ := h.exists_session hc
        have hsame := (hget _ t' ht').symm.trans ht
        cases hsame
        exact h.fits c hc t ht'
      · rw [List.mem_singleton] at hc
        subst hc
        rw [Named.get?_append, Named.get?_eq_none_iff.mpr hid, Option.none_or, Named.get?,
          if_pos rfl] at ht
        cases ht
        exact ⟨hstate, hversion, hopen, rfl⟩
    · rw [h.tracked]
      constructor
      · rintro ⟨c, hc, hsession, hkept⟩
        exact ⟨c, List.mem_append_left _ hc, hsession, hkept⟩
      · rintro ⟨c, hc, hsession, hkept⟩
        rcases List.mem_append.mp hc with hc | hc
        · exact ⟨c, hc, hsession, hkept⟩
        · rw [List.mem_singleton] at hc
          subst hc
          cases hkept
  · rw [accept, if_neg haccepting]
    exact ⟨h, .refl v⟩

/-! ### Sessions that tasks deal with -/

lemma turn_advance (hc : v.connections[i]? = some c)
    (hs : Named.get? v.sessions c.session = some s) (hrank : 2 ≤ s.state.rank)
    (ht : s.Advances t) : v.Turn i c c s t :=
  ⟨hc, hs, rfl, (h.fits c (List.mem_of_getElem? hc) s hs).advances hrank ht, ht.rank, fun h => h⟩

/-- What a task makes of a session that has been through the handshake is a turn of its
connection. -/
lemma exists_turn (hid : v.Opened id) : ∃ i c s, c.session = id ∧
    Named.get? v.sessions id = some s ∧ ∀ t, s.Advances t →
      v.Turn i c c s t ∧ (v.onSession id fun _ => t) = v.turn i c t := by
  obtain ⟨s, hs, hrank⟩ := hid
  obtain ⟨i, c, hc, rfl⟩ := h.exists_connection hs
  exact ⟨i, c, s, rfl, hs, fun t ht => ⟨h.turn_advance hc hs hrank ht, h.onSession_eq hc hs _⟩⟩

end Sound

/-- The drain that is stepped, the session that it is about, and what becomes of both. -/
lemma stepDrain_cases (v : Server) (now : Duration) (k : Nat) :
    v.stepDrain now k = v ∨ ∃ d s, v.tracker.drains[k]? = some d ∧
      Named.get? v.sessions d.session = some s ∧
      v.stepDrain now k =
        { v.onSession d.session fun _ => (d.stage.step v.tracker.policy (horizon now) now s).2 with
          tracker := { v.tracker with
            drains := v.tracker.drains.set k
              (d.goTo (d.stage.step v.tracker.policy (horizon now) now s).1) }
          told := v.told ++ d.tells (d.stage.step v.tracker.policy (horizon now) now s).1 } := by
  rcases hd : v.tracker.drains[k]? with _ | d
  · exact Or.inl (by simp only [stepDrain, hd])
  · rcases hs : Named.get? v.sessions d.session with _ | s
    · exact Or.inl (by simp only [stepDrain, hd, hs])
    · exact Or.inr ⟨d, s, rfl, hs, by simp only [stepDrain, hd, hs]; rfl⟩

lemma mem_flatMap_set {α : Type} {l : List α} {f : α → List String} {k : Nat} {a : α}
    (hid : id ∈ (l.set k a).flatMap f) : id ∈ l.flatMap f ∨ id ∈ f a := by
  obtain ⟨b, hb, hmem⟩ := List.mem_flatMap.mp hid
  rcases List.mem_or_eq_of_mem_set hb with hb | rfl
  · exact Or.inl (List.mem_flatMap.mpr ⟨b, hb, hmem⟩)
  · exact Or.inr hmem

/-- What a step of a shutdown does. -/
lemma stepShutdown_cases (v : Server) (k : Nat) :
    v.stepShutdown k = v ∨
      (∃ waits, v.shutdowns[k]? = some (.flagged waits) ∧ (waits && v.accepting) = false ∧
        v.stepShutdown k = { v with shutdowns := v.shutdowns.set k (.telling v.tracker.tracked) }) ∨
      (v.shutdowns[k]? = some (.telling []) ∧
        v.stepShutdown k = { v with shutdowns := v.shutdowns.set k .returned }) ∨
      ∃ id ids, v.shutdowns[k]? = some (.telling (id :: ids)) ∧
        v.stepShutdown k =
          { v with shutdowns := v.shutdowns.set k (.telling ids) }.tell id true := by
  rcases hk : v.shutdowns[k]? with _ | (waits | (_ | ⟨id, ids⟩) | _)
  · exact Or.inl (by simp only [stepShutdown, hk])
  · by_cases hw : (waits && v.accepting) = true
    · exact Or.inl (by simp only [stepShutdown, hk, if_pos hw])
    · exact Or.inr (Or.inl
        ⟨waits, rfl, by simpa using hw, by simp only [stepShutdown, hk, if_neg hw]⟩)
  · exact Or.inr (Or.inr (Or.inl ⟨rfl, by simp only [stepShutdown, hk]⟩))
  · exact Or.inr (Or.inr (Or.inr ⟨id, ids, rfl, by simp only [stepShutdown, hk]⟩))
  · exact Or.inl (by simp only [stepShutdown, hk])

lemma mem_listed_of_shutdown {k : Nat} {ids : List String}
    (hk : v.shutdowns[k]? = some (.telling ids)) (hid : id ∈ ids) : id ∈ v.listed :=
  List.mem_append_right _ (List.mem_flatMap.mpr ⟨_, List.mem_of_getElem? hk, hid⟩)

lemma tell_cases (hs : Named.get? v.sessions id = some s) (force : Bool) :
    (∃ t, s.sendControl .disconnect = .ok t ∧
      v.tell id force = { v.onSession id (fun _ => t) with told := v.told ++ [id] }) ∨
    (∃ e, s.sendControl .disconnect = .error e) ∧
      v.tell id force = if force then v.onSession id Session.closed else v := by
  rcases hsend : s.sendControl .disconnect with e | t
  · exact Or.inr ⟨⟨e, rfl⟩, by simp only [tell, hs, hsend]⟩
  · exact Or.inl ⟨t, rfl, by simp only [tell, hs, hsend]⟩

/-- Telling a session that it is over is a turn of its connection that does not suspend it. -/
lemma Sound.tell_turn (h : v.Sound) (hid : v.Opened id) (force : Bool) :
    v.tell id force = v ∨ ∃ i c s t, c.session = id ∧ v.Turn i c c s t ∧ s.KeepsState t ∧
      ∃ told, (∀ j ∈ v.told, j ∈ told) ∧ v.tell id force = { v.turn i c t with told } := by
  obtain ⟨i, c, s, hsession, hs, hturn⟩ := h.exists_turn hid
  rcases tell_cases hs force with ⟨t, hsend, heq⟩ | ⟨-, heq⟩
  · obtain ⟨ht, honSession⟩ := hturn t (.sendControl hsend)
    rw [honSession] at heq
    exact Or.inr ⟨i, c, s, t, hsession, ht, Session.keepsState_sendControl hsend, _,
      fun j hj => List.mem_append_left _ hj, heq⟩
  · cases force with
    | false => exact Or.inl heq
    | true =>
      obtain ⟨ht, honSession⟩ := hturn s.closed (.closed s)
      rw [onSession, ← Sessions.modify_eq_of_get? h.nodup hs, ← onSession] at honSession
      rw [if_pos rfl, honSession] at heq
      exact Or.inr ⟨i, c, s, _, hsession, ht, .closed s, _, fun j hj => hj, heq⟩

/-- Whoever is told that it is over is settled, if the attempt is made by force or the session takes
frames. -/
lemma Sound.settled_tell (h : v.Sound) (hid : v.Opened id) {force : Bool}
    (hready : force = false → ∀ s, Named.get? v.sessions id = some s → s.Ready) :
    (v.tell id force).Settled id := by
  obtain ⟨i, c, s, rfl, hs, -⟩ := h.exists_turn hid
  rcases tell_cases hs force with ⟨t, -, heq⟩ | ⟨⟨e, hsend⟩, heq⟩ <;> rw [heq]
  · exact Or.inl (List.mem_append_right _ (List.mem_singleton_self _))
  · cases force with
    | true =>
      refine Or.inr ⟨s.closed, ?_, s.state_closed⟩
      rw [if_pos rfl, onSession, Sessions.get?_modify, if_pos rfl, hs, Option.map_some]
    | false =>
      -- a session that takes no DISCONNECT is over
      refine Or.inr ⟨s, hs, ?_⟩
      by_contra hstate
      obtain ⟨t, ht⟩ := (hready rfl s hs).sendControl hstate .disconnect
      rw [hsend] at ht
      cases ht

namespace Sound

variable (h : v.Sound)

include h

lemma steps_tell (hid : v.Opened id) (force : Bool) : v.Steps (v.tell id force) := by
  rcases h.tell_turn hid force with heq | ⟨i, c, s, t, -, ht, -, told, htold, heq⟩ <;> rw [heq]
  · exact ⟨h, .refl v⟩
  · exact h.steps_of_turn ht rfl rfl rfl rfl htold fun _ hid => hid

/-! ### Moves that have to do with the tracker -/

lemma turn_tracked (hc : v.connections[i]? = some c) (hstage : c.stage = .opened)
    (hs : Named.get? v.sessions c.session = some s) :
    v.Turn i c { c with stage := .tracked } s s ∧
      v.sessions = (v.turn i { c with stage := .tracked } s).sessions := by
  have hfits := h.fits c (List.mem_of_getElem? hc) s hs
  simp only [Connection.Fits, hstage] at hfits
  exact ⟨⟨hc, hs, rfl, hfits, Nat.le_refl _, by simp [hstage]⟩,
    (Sessions.modify_self h.nodup hs).symm⟩

lemma steps_track (hc : v.connections[i]? = some c) (hstage : c.stage = .opened) :
    v.Steps ({ v with tracker := v.tracker.insert c.session }.setConnection i
      { c with stage := .tracked }) := by
  obtain ⟨s, hs⟩ := h.exists_session (List.mem_of_getElem? hc)
  obtain ⟨ht, hsessions⟩ := h.turn_tracked hc hstage hs
  refine ⟨h.of_turn ht rfl hsessions (fun id => ?_) fun _ hid => Or.inl hid,
    .of_turn ht rfl hsessions fun _ hid => hid⟩
  show id ∈ (if c.session ∈ v.tracker.tracked then v.tracker.tracked
    else v.tracker.tracked ++ [c.session]) ↔ _
  by_cases hid : id = c.session
  · subst hid
    rw [if_pos rfl]
    refine iff_of_true ?_ rfl
    split
    · assumption
    · exact List.mem_append_right _ (List.mem_singleton_self _)
  · rw [if_neg hid]
    split
    · rfl
    · simp [hid]

lemma turn_established (hc : v.connections[i]? = some c) (hstage : c.stage = .tracked)
    (hs : Named.get? v.sessions c.session = some s) :
    v.Turn i c { c with stage := .established } s s ∧
      v.setConnection i { c with stage := .established } =
        v.turn i { c with stage := .established } s := by
  have hfits := h.fits c (List.mem_of_getElem? hc) s hs
  simp only [Connection.Fits, hstage] at hfits
  exact ⟨⟨hc, hs, rfl, hfits, Nat.le_refl _, by simp [hstage]⟩, h.setConnection_eq hs rfl⟩

lemma steps_established (hc : v.connections[i]? = some c) (hstage : c.stage = .tracked)
    (hs : Named.get? v.sessions c.session = some s) :
    v.Steps (v.turn i { c with stage := .established } s) :=
  h.steps_of_turn (h.turn_established hc hstage hs).1 (by simp [hstage, ConnectionStage.isKept])
    rfl rfl rfl (fun _ hid => hid) fun _ hid => hid

lemma opened_of_isKept (hc : c ∈ v.connections) (hkept : c.stage.isKept = true) :
    v.Opened c.session :=
  h.opened_of_tracked ((h.mem_tracked hc).mpr hkept)

lemma steps_checkHealth (hc : v.connections[i]? = some c) (hstage : c.stage = .tracked) :
    v.Steps (v.checkHealth i c) := by
  obtain ⟨s, hs⟩ := h.exists_session (List.mem_of_getElem? hc)
  have hsteps := h.steps_established hc hstage hs
  have hid := h.opened_of_isKept (List.mem_of_getElem? hc) (by rw [hstage]; rfl)
  simp only [checkHealth, (h.turn_established hc hstage hs).2]
  split
  · exact hsteps
  · have htell := hsteps.1.steps_tell (hsteps.2.opened hid) false
    exact ⟨htell.1, hsteps.2.trans htell.2⟩

lemma turn_left (hc : v.connections[i]? = some c) (hstage : c.stage = .leaving)
    (hs : Named.get? v.sessions c.session = some s) :
    v.Turn i c { c with stage := .ended } s s ∧
      v.sessions = (v.turn i { c with stage := .ended } s).sessions := by
  have hfits := h.fits c (List.mem_of_getElem? hc) s hs
  simp only [Connection.Fits, hstage] at hfits
  exact ⟨⟨hc, hs, rfl, Or.inl hfits, Nat.le_refl _, fun _ => rfl⟩,
    (Sessions.modify_self h.nodup hs).symm⟩

lemma steps_leave (hc : v.connections[i]? = some c) (hstage : c.stage = .leaving) :
    v.Steps ({ v with tracker := (v.tracker.remove c.session).2 }.setConnection i
      { c with stage := .ended }) := by
  obtain ⟨s, hs⟩ := h.exists_session (List.mem_of_getElem? hc)
  obtain ⟨ht, hsessions⟩ := h.turn_left hc hstage hs
  refine ⟨h.of_turn ht rfl hsessions (fun id => ?_) fun _ hid => Or.inl hid,
    .of_turn ht rfl hsessions fun _ hid => hid⟩
  show id ∈ v.tracker.tracked.filter (· != c.session) ↔ _
  by_cases hid : id = c.session <;> simp [List.mem_filter, hid, ConnectionStage.isKept]

lemma opened_of_drain {d : Drain} (hd : d ∈ v.tracker.drains) : v.Opened d.session :=
  h.opened _ (List.mem_append_left _ (List.mem_append_left _ (List.mem_map_of_mem hd)))

lemma steps_drain (now : Duration) (k : Nat) : v.Steps (v.stepDrain now k) := by
  rcases stepDrain_cases v now k with heq | ⟨d, s, hd, hs, heq⟩ <;> rw [heq]
  · exact ⟨h, .refl v⟩
  · obtain ⟨i, c, s', hsession, hs', hturn⟩ := h.exists_turn
      (h.opened_of_drain (List.mem_of_getElem? hd))
    rw [hs] at hs'
    cases hs'
    obtain ⟨ht, honSession⟩ := hturn _ (d.stage.step_advances v.tracker.policy (horizon now) now s)
    rw [honSession]
    refine h.steps_of_turn ht rfl rfl rfl rfl (fun _ hid => List.mem_append_left _ hid) ?_
    -- a drain keeps its session
    intro id hid
    simp only [listed, List.mem_append] at hid ⊢
    rcases hid with (hid | hid) | hid
    · obtain ⟨d', hd', rfl⟩ := List.mem_map.mp hid
      refine Or.inl (Or.inl ?_)
      rcases List.mem_or_eq_of_mem_set hd' with hd' | heq
      · exact List.mem_map_of_mem hd'
      · rw [heq]
        exact List.mem_map.mpr ⟨d, List.mem_of_getElem? hd, rfl⟩
    · exact Or.inl (Or.inr hid)
    · exact Or.inr hid

lemma steps_setHealthy (healthy : Bool) : v.Steps (v.flagHealth healthy) := by
  have hids : (v.flagHealth healthy).healthTasks.flatMap HealthStage.ids =
      v.healthTasks.flatMap HealthStage.ids := by
    show (v.healthTasks ++ if (v.tracker.healthy && !healthy) = true then [HealthStage.flagged]
      else []).flatMap HealthStage.ids = _
    rw [List.flatMap_append]
    split <;> simp [HealthStage.ids]
  refine h.steps_of_eq rfl rfl rfl rfl fun id hid => Or.inl ?_
  rw [listed, hids] at hid
  exact hid

/-- What a step of a change of the health does. -/
lemma stepHealth_cases (k : Nat) :
    v.stepHealth k = v ∨
      v.healthTasks[k]? = some .flagged ∧ v.stepHealth k =
        { v with healthTasks := v.healthTasks.set k (.considering v.tracker.tracked) } ∨
      ∃ id ids s, v.healthTasks[k]? = some (.considering (id :: ids)) ∧
        Named.get? v.sessions id = some s ∧
        v.stepHealth k = { v with
          healthTasks := v.healthTasks.set k (.considering ids)
          tracker := if s.isActive then v.tracker.startDrains [id] else v.tracker } := by
  rcases hk : v.healthTasks[k]? with _ | (_ | (_ | ⟨id, ids⟩))
  · exact Or.inl (by simp only [stepHealth, hk])
  · exact Or.inr (Or.inl ⟨rfl, by simp only [stepHealth, hk]⟩)
  · exact Or.inl (by simp only [stepHealth, hk])
  · have hid : v.Opened id := h.opened id (List.mem_append_left _ (List.mem_append_right _
      (List.mem_flatMap.mpr ⟨_, List.mem_of_getElem? hk, List.mem_cons_self⟩)))
    obtain ⟨s, hs, -⟩ := hid
    refine Or.inr (Or.inr ⟨id, ids, s, rfl, hs, ?_⟩)
    simp only [stepHealth, hk, hs]
    split <;> rfl

lemma steps_stepHealth (k : Nat) : v.Steps (v.stepHealth k) := by
  rcases h.stepHealth_cases k with heq | ⟨hk, heq⟩ | ⟨id, ids, s, hk, hs, heq⟩ <;> rw [heq]
  · exact ⟨h, .refl v⟩
  · refine h.steps_of_eq rfl rfl rfl rfl fun j hj => ?_
    simp only [listed, List.mem_append] at hj ⊢
    rcases hj with (hj | hj) | hj
    · exact Or.inl (Or.inl (Or.inl hj))
    · exact (mem_flatMap_set hj).imp (fun hj => Or.inl (Or.inr hj)) fun hj => hj
    · exact Or.inl (Or.inr hj)
  · have hlist : ∀ j ∈ id :: ids, j ∈ v.healthTasks.flatMap HealthStage.ids := fun j hj =>
      List.mem_flatMap.mpr ⟨_, List.mem_of_getElem? hk, hj⟩
    refine h.steps_of_eq rfl rfl ?_ rfl fun j hj => Or.inl ?_
    · dsimp only
      split <;> rfl
    · simp only [listed, List.mem_append] at hj ⊢
      rcases hj with (hj | hj) | hj
      · split at hj
        · rw [Tracker.startDrains, List.map_append, List.mem_append] at hj
          refine Or.inl (hj.imp_right fun hj => hlist j ?_)
          rw [List.map_cons, List.map_nil, List.map_cons, List.map_nil, List.mem_singleton] at hj
          rw [hj]
          exact List.mem_cons_self
        · exact Or.inl (Or.inl hj)
      · refine Or.inl (Or.inr ?_)
        exact (mem_flatMap_set hj).elim (fun hj => hj)
          fun hj => hlist j (List.mem_cons_of_mem _ hj)
      · exact Or.inr hj

lemma steps_shutdown : v.Steps v.flagShutdown := by
  have hids : v.flagShutdown.shutdowns.flatMap ShutdownStage.ids =
      v.shutdowns.flatMap ShutdownStage.ids := by
    show (v.shutdowns ++ [ShutdownStage.flagged (!v.acceptorTaken)]).flatMap _ = _
    rw [List.flatMap_append]
    simp [ShutdownStage.ids]
  refine h.steps_of_eq rfl rfl rfl rfl fun id hid => Or.inl ?_
  rw [listed, hids] at hid
  exact hid

lemma steps_endAccepting : v.Steps (v.next .endAccepting) := by
  simp only [next]
  split
  · exact h.steps_of_eq rfl rfl rfl rfl fun _ hid => Or.inl hid
  · exact ⟨h, .refl v⟩

lemma steps_setShutdown (k : Nat) (stage : ShutdownStage)
    (hstage : ∀ id ∈ stage.ids, id ∈ v.listed ∨ id ∈ v.tracker.tracked) :
    v.Steps { v with shutdowns := v.shutdowns.set k stage } := by
  refine h.steps_of_eq rfl rfl rfl rfl fun id hid => ?_
  rcases List.mem_append.mp hid with hid | hid
  · exact Or.inl (List.mem_append_left _ hid)
  · exact (mem_flatMap_set hid).elim (fun hid => Or.inl (List.mem_append_right _ hid)) (hstage id)

lemma steps_stepShutdown (k : Nat) : v.Steps (v.stepShutdown k) := by
  rcases stepShutdown_cases v k with
    heq | ⟨waits, -, -, heq⟩ | ⟨-, heq⟩ | ⟨id, ids, hk, heq⟩ <;> rw [heq]
  · exact ⟨h, .refl v⟩
  · exact h.steps_setShutdown k _ fun id hid => Or.inr hid
  · exact h.steps_setShutdown k _ nofun
  · have hsteps := h.steps_setShutdown k (.telling ids) fun j hj =>
      Or.inl (mem_listed_of_shutdown hk (List.mem_cons_of_mem _ hj))
    have htell := hsteps.1.steps_tell
      (hsteps.2.opened (h.opened id (mem_listed_of_shutdown hk List.mem_cons_self))) true
    exact ⟨htell.1, hsteps.2.trans htell.2⟩

/-- **Every move leaves the server sound and goes on from where it is**, as long as a session that
is made has a name of its own. -/
lemma steps_next (hnew : ∀ now id remote, m = .accept now id remote →
    id ∉ Named.names v.sessions) : v.Steps (v.next m) := by
  cases m with
  | accept now id remote => exact h.steps_accept now (hnew now id remote rfl) remote
  | track i =>
    simp only [next]
    split
    · split
      · exact h.steps_track ‹_› ‹_›
      · exact ⟨h, .refl v⟩
    · exact ⟨h, .refl v⟩
  | checkHealth i =>
    simp only [next]
    split
    · split
      · exact h.steps_checkHealth ‹_› ‹_›
      · exact ⟨h, .refl v⟩
    · exact ⟨h, .refl v⟩
  | leave i =>
    simp only [next]
    split
    · split
      · exact h.steps_leave ‹_› ‹_›
      · exact ⟨h, .refl v⟩
    · exact ⟨h, .refl v⟩
  | drain now k => exact h.steps_drain now k
  | setHealthy healthy => exact h.steps_setHealthy healthy
  | stepHealth k => exact h.steps_stepHealth k
  | shutdown => exact h.steps_shutdown
  | endAccepting => exact h.steps_endAccepting
  | stepShutdown k => exact h.steps_stepShutdown k
  | _ => exact h.steps_of_takes (h.takes_of_isLocal rfl)

end Sound

/-! ## Runs -/

/-- The name of the session that a move makes. -/
def Move.newName? : Move → Option String
  | .accept _ id _ => some id
  | _ => none

@[simp] lemma shutdowns_onSession (v : Server) (id : String) (f : Session → Session) :
    (v.onSession id f).shutdowns = v.shutdowns := rfl

@[simp] lemma shutdowns_setConnection (v : Server) (i : Nat) (c : Connection) :
    (v.setConnection i c).shutdowns = v.shutdowns := rfl

@[simp] lemma shutdowns_tell (v : Server) (id : String) (force : Bool) :
    (v.tell id force).shutdowns = v.shutdowns := by
  rw [tell]
  repeat' split
  all_goals rfl

@[simp] lemma names_onSession (v : Server) (id : String) (f : Session → Session) :
    Named.names (v.onSession id f).sessions = Named.names v.sessions :=
  Sessions.names_modify v.sessions id f

@[simp] lemma names_setConnection (v : Server) (i : Nat) (c : Connection) :
    Named.names (v.setConnection i c).sessions = Named.names v.sessions := rfl

@[simp] lemma names_tell (v : Server) (id : String) (force : Bool) :
    Named.names (v.tell id force).sessions = Named.names v.sessions := by
  rw [tell]
  repeat' split
  all_goals simp

/-- Only the taking of a connection makes a session. -/
lemma names_next (hm : m.newName? = none) :
    Named.names (v.next m).sessions = Named.names v.sessions := by
  cases m with
  | accept now id remote => cases hm
  | _ =>
    simp only [next, greet, answered, checkHealth, receive, notice, onRequests, stepWriter,
      flagHealth, stepHealth, flagShutdown, stepDrain, stepShutdown]
    repeat' split
    all_goals simp

/-- No step changes how sessions are drained. -/
lemma policy_next (v : Server) (m : Move) : (v.next m).tracker.policy = v.tracker.policy := by
  cases m <;>
    simp only [next, accept, greet, answered, checkHealth, receive, notice, onRequests, stepWriter,
      flagHealth, stepHealth, flagShutdown, stepDrain, stepShutdown, tell]
  all_goals
    repeat' split
    all_goals rfl

lemma policy_run (v : Server) (ms : List Move) :
    (v.run ms).tracker.policy = v.tracker.policy := by
  induction ms generalizing v with
  | nil => rfl
  | cons m ms ih => exact (ih (v.next m)).trans (v.policy_next m)

/-- A server that has no sessions yet, and drains as its settings say. -/
structure IsNew (v : Server) : Prop where
  policy : v.tracker.policy = drainPolicy v.settings
  sessions : v.sessions = []
  connections : v.connections = []
  tracked : v.tracker.tracked = []
  drains : v.tracker.drains = []
  healthTasks : v.healthTasks = []
  shutdowns : v.shutdowns = []

lemma IsNew.sound (hv : v.IsNew) : v.Sound := by
  have hlisted : v.listed = [] := by
    rw [listed, hv.drains, hv.healthTasks, hv.shutdowns]
    rfl
  refine ⟨?_, ?_, ?_, ?_, ?_⟩
  · rw [hv.sessions, hv.connections]
    rfl
  · rw [hv.sessions]
    exact List.nodup_nil
  · rw [hv.connections]
    exact fun c hc => absurd hc List.not_mem_nil
  · rw [hv.tracked, hv.connections]
    simp
  · rw [hlisted]
    exact fun id hid => absurd hid List.not_mem_nil

/-- A server is new when it has been set up, whatever its settings and operations. -/
lemma isNew_create {settings : ServerSettings} {registry : Registry}
    (hv : create settings registry = .ok v) : v.IsNew := by
  obtain ⟨-, -, hv⟩ := bind_eq_ok.mp hv
  obtain ⟨range, -, hv⟩ := bind_eq_ok.mp hv
  cases hv
  exact ⟨rfl, rfl, rfl, rfl, rfl, rfl, rfl⟩

/-- The server of the settings that are there by default, without operations. -/
def standard : Server :=
  { settings := {}
    range := default
    dispatcher := { operations := { registry := {} } }
    tracker := { policy := { window := .ofMillis 5000, pause := .ofMillis 25 } } }

lemma create_standard : create {} {} = .ok standard := by rfl

lemma isNew_standard : standard.IsNew := isNew_create create_standard

/-- The opening of a client that speaks all versions. -/
def opening : Incoming := .frame (Hello.toFrame { range := default, clientId := "client" })

/-- The moves by which a client gets a session, from the taking of its connection up to the look at
the health. -/
def establish (i : Nat) (id : String) : List Move :=
  [.accept ⟨0⟩ id (.v4 127 0 0 1 9000), .greet ⟨0⟩ i opening, .answered i true, .track i,
    .checkHealth i]

lemma run_concat (v : Server) (ms : List Move) (m : Move) :
    v.run (ms ++ [m]) = (v.run ms).next m := by
  rw [run, List.foldl_append, run, List.foldl_cons, List.foldl_nil]

/-- Shutdowns are called for, and go on, by moves of their own. -/
lemma shutdowns_next (hm : m ≠ .shutdown) (hm' : ∀ k, m ≠ .stepShutdown k) :
    (v.next m).shutdowns = v.shutdowns := by
  cases m with
  | shutdown => exact absurd rfl hm
  | stepShutdown k => exact absurd rfl (hm' k)
  | _ =>
    simp only [next, accept, greet, answered, checkHealth, receive, notice, onRequests, stepWriter,
      flagHealth, stepHealth, stepDrain]
    repeat' split
    all_goals simp

lemma names_run_subset (hv : v.sessions = []) (ms : List Move) :
    ∀ id ∈ Named.names (v.run ms).sessions, id ∈ ms.filterMap Move.newName? := by
  induction ms using List.reverseRecOn with
  | nil =>
    intro id hid
    rw [run, List.foldl_nil, hv] at hid
    exact absurd hid List.not_mem_nil
  | append_singleton ms m ih =>
    intro id hid
    rw [run_concat] at hid
    rw [List.filterMap_append, List.mem_append]
    rcases hm : m.newName? with _ | new
    · rw [names_next hm] at hid
      exact Or.inl (ih id hid)
    · cases m with
      | accept now id' remote =>
        simp only [next, accept] at hid
        split at hid
        · exact (Named.mem_names_put hid).imp (ih id) List.mem_singleton.mpr
        · exact Or.inl (ih id hid)
      | _ => cases hm

namespace IsNew

variable (hv : v.IsNew) {ms before after : List Move}

include hv

/-- If no two sessions are given one name, every move that makes a session gives it a new one. -/
lemma name_notMem (hnames : ((before ++ m :: after).filterMap Move.newName?).Nodup) :
    ∀ now id remote, m = .accept now id remote → id ∉ Named.names (v.run before).sessions := by
  rintro now id remote rfl hid
  rw [List.filterMap_append] at hnames
  exact (List.nodup_append.mp hnames).2.2 id (names_run_subset hv.sessions before id hid) id
    (by simp [Move.newName?]) rfl

/-- **Every reachable server is sound.** -/
lemma sound_run (hnames : (ms.filterMap Move.newName?).Nodup) : (v.run ms).Sound := by
  induction ms using List.reverseRecOn with
  | nil => exact hv.sound
  | append_singleton ms m ih =>
    have hms : (ms.filterMap Move.newName?).Nodup := by
      rw [List.filterMap_append] at hnames
      exact (List.nodup_append.mp hnames).1
    rw [run_concat]
    exact ((ih hms).steps_next (hv.name_notMem hnames)).1

/-- A server goes on from each state that it has been in. -/
lemma precedes_run (hnames : ((before ++ after).filterMap Move.newName?).Nodup) :
    (v.run before).Precedes (v.run (before ++ after)) := by
  induction after using List.reverseRecOn with
  | nil =>
    rw [List.append_nil]
    exact .refl _
  | append_singleton after m ih =>
    rw [← List.append_assoc] at hnames ⊢
    have hbefore : ((before ++ after).filterMap Move.newName?).Nodup := by
      rw [List.filterMap_append] at hnames
      exact (List.nodup_append.mp hnames).1
    rw [run_concat]
    exact (ih hbefore).trans
      ((hv.sound_run hbefore).steps_next (hv.name_notMem hnames)).2

end IsNew

end Server

end RemoteCall
