/-
# The connections of a server and their sessions

A server makes one session for each connection that it takes, and every task that the session has
goes through its connection.  `Sound` says what that means in any state: how far a connection has
come determines what its session is like and whether it is tracked, and whatever the tasks of the
server have on their lists has been through the handshake.

Nearly all moves change one connection and its session.  Such a change is a `turn`; it is enough to
look at the one connection to see that everything stays sound.
-/
import Mathlib.Data.List.Nodup
import RemoteCall.Proofs.Drain
import RemoteCall.Proofs.Server.Dispatch
import RemoteCall.Proofs.Sessions
import RemoteCall.Proofs.Steps
import RemoteCall.Server.Basic

namespace RemoteCall

/-! ## Stages of connections -/

/-- The session is tracked. -/
def ConnectionStage.isKept : ConnectionStage → Bool
  | tracked | established | leaving => true
  | _ => false

/-- What the session of a connection is like, by how far the connection has come. -/
def Connection.Fits (c : Connection) (s : Session) : Prop :=
  match c.stage with
  | .greeting | .answering .. =>
    s.state = .negotiating ∧ s.version = none ∧ s.queueOpen = true ∧ c.writer = none
  | .opened | .tracked | .established => s.Ready ∧ ∃ w, c.writer = some w ∧ w.Heeds s
  | .leaving => s.state = .disconnected
  | .ended => s.state = .disconnected ∨ s.state = .negotiating ∧ c.writer = none

namespace Connection.Fits

variable {c : Connection} {s t : Session}

/-- Only the state, the version and the reader of the queue matter. -/
lemma congr (h : c.Fits s) (hversion : t.version = s.version) (hstate : t.state = s.state)
    (hopen : t.queueOpen = s.queueOpen) : c.Fits t := by
  have hready : s.Ready → t.Ready := fun hs =>
    ⟨by rw [hstate]; exact hs.rank, by rw [hversion]; exact hs.version,
      by rw [hopen, hstate]; exact hs.reader⟩
  rcases hc : c.stage <;> simp only [Fits, hc, Writer.Heeds, hversion, hstate, hopen] at h ⊢
  case opened | tracked | established => exact ⟨hready h.1, h.2⟩
  all_goals exact h

/-- A session that is open or over goes on with its connection. -/
lemma advances (h : c.Fits s) (hs : 2 ≤ s.state.rank) (ht : s.Advances t) : c.Fits t := by
  have hnegotiating : s.state ≠ .negotiating := fun hstate => by
    rw [hstate] at hs
    exact absurd hs (by decide)
  rcases hc : c.stage <;> simp only [Fits, hc] at h ⊢
  case opened | tracked | established =>
    obtain ⟨hready, w, hw, hheeds⟩ := h
    exact ⟨hready.advances ht, w, hw, fun hstop => ht.stays (hheeds hstop)⟩
  case leaving => exact ht.stays h
  case ended => exact Or.inl (ht.stays (h.resolve_right fun h => hnegotiating h.1))
  all_goals exact absurd h.1 hnegotiating

lemma heeds (h : c.Fits s) {w : Writer} (hw : c.writer = some w) :
    2 ≤ s.state.rank ∧ w.Heeds s := by
  have hover : s.state = .disconnected → 2 ≤ s.state.rank ∧ w.Heeds s := fun hs =>
    ⟨by rw [hs]; decide, fun _ => hs⟩
  rcases hc : c.stage <;> simp only [Fits, hc, hw] at h
  case opened | tracked | established =>
    obtain ⟨hready, w', hw', hheeds⟩ := h
    cases hw'
    exact ⟨hready.rank, hheeds⟩
  case leaving => exact hover h
  case ended => exact hover (h.resolve_right fun h => by cases h.2)
  all_goals cases h.2.2.2

/-- The writer of a connection goes on with its session. -/
lemma write {w w' : Writer} (h : c.Fits s) (hw : c.writer = some w) (ht : s.Advances t)
    (hw' : w'.Heeds t) : { c with writer := some w' }.Fits t := by
  have hrank := (h.heeds hw).1
  have h' := h.advances hrank ht
  rcases hc : c.stage <;> simp only [Fits, hc] at h' ⊢
  case opened | tracked | established => exact ⟨h'.1, w', rfl, hw'⟩
  case leaving => exact h'
  case ended => exact Or.inl (h'.resolve_right fun h' => by rw [hw] at h'; cases h'.2)
  all_goals
    rw [hw] at h'
    cases h'.2.2.2

/-- A session whose connection is tracked has been through the handshake. -/
lemma rank_of_isKept (h : c.Fits s) (hc : c.stage.isKept = true) : 2 ≤ s.state.rank := by
  rcases hstage : c.stage <;> simp only [Fits, hstage] at h
  case tracked | established => exact h.1.rank
  case leaving =>
    rw [h]
    decide
  all_goals
    rw [hstage] at hc
    cases hc

end Connection.Fits

/-! ## Sound servers -/

/-- The sessions that a change of the health is still to look at. -/
def HealthStage.ids : HealthStage → List String
  | .flagged => []
  | .considering ids => ids

/-- The sessions that a shutdown is still to tell. -/
def ShutdownStage.ids : ShutdownStage → List String
  | .telling ids => ids
  | _ => []

namespace Server

/-- The sessions of drains, and those on the lists of changes of the health and of shutdowns. -/
def listed (v : Server) : List String :=
  v.tracker.drains.map Drain.session ++ v.healthTasks.flatMap HealthStage.ids ++
    v.shutdowns.flatMap ShutdownStage.ids

/-- A session has been through the handshake. -/
def Opened (v : Server) (id : String) : Prop :=
  ∃ s, Named.get? v.sessions id = some s ∧ 2 ≤ s.state.rank

/-- Each session belongs to one connection and fits how far that has come; the tracked sessions are
those of the connections that say so; and tasks deal with sessions after the handshake only. -/
structure Sound (v : Server) : Prop where
  names : Named.names v.sessions = v.connections.map Connection.session
  nodup : (Named.names v.sessions).Nodup
  fits : ∀ c ∈ v.connections, ∀ s, Named.get? v.sessions c.session = some s → c.Fits s
  tracked : ∀ id, id ∈ v.tracker.tracked ↔
    ∃ c ∈ v.connections, c.session = id ∧ c.stage.isKept = true
  opened : ∀ id ∈ v.listed, v.Opened id

variable {v v' : Server} {i : Nat} {c c' : Connection} {s t : Session} {id : String} {m : Move}

namespace Sound

lemma eq_of_session (h : v.Sound) (hc : c ∈ v.connections) (hc' : c' ∈ v.connections)
    (heq : c.session = c'.session) : c = c' := by
  have hnodup := h.nodup
  rw [h.names] at hnodup
  exact List.inj_on_of_nodup_map hnodup hc hc' heq

lemma exists_session (h : v.Sound) (hc : c ∈ v.connections) :
    ∃ s, Named.get? v.sessions c.session = some s := by
  apply Option.ne_none_iff_exists'.mp
  rw [ne_eq, Named.get?_eq_none_iff, h.names, not_not]
  exact List.mem_map_of_mem hc

lemma exists_connection (h : v.Sound) (hs : Named.get? v.sessions id = some s) :
    ∃ (i : Nat) (c : Connection), v.connections[i]? = some c ∧ c.session = id := by
  have hmem : id ∈ Named.names v.sessions := List.mem_map_of_mem (Named.mem_of_get? hs)
  rw [h.names] at hmem
  obtain ⟨c, hc, hid⟩ := List.mem_map.mp hmem
  obtain ⟨i, hi⟩ := List.mem_iff_getElem?.mp hc
  exact ⟨i, c, hi, hid⟩

lemma mem_tracked (h : v.Sound) (hc : c ∈ v.connections) :
    c.session ∈ v.tracker.tracked ↔ c.stage.isKept = true := by
  rw [h.tracked]
  constructor
  · rintro ⟨c', hc', heq, hkept⟩
    rwa [← h.eq_of_session hc' hc heq]
  · exact fun hkept => ⟨c, hc, rfl, hkept⟩

lemma opened_of_tracked (h : v.Sound) (hid : id ∈ v.tracker.tracked) : v.Opened id := by
  obtain ⟨c, hc, rfl, hkept⟩ := (h.tracked id).mp hid
  obtain ⟨s, hs⟩ := h.exists_session hc
  exact ⟨s, hs, (h.fits c hc s hs).rank_of_isKept hkept⟩

/-- A change that no connection and no session is concerned with. -/
lemma of_eq (h : v.Sound) (hconnections : v'.connections = v.connections)
    (hsessions : v'.sessions = v.sessions) (htracked : v'.tracker.tracked = v.tracker.tracked)
    (hlisted : ∀ id ∈ v'.listed, id ∈ v.listed ∨ id ∈ v.tracker.tracked) : v'.Sound := by
  refine ⟨?_, ?_, ?_, ?_, fun id hid => ?_⟩
  · rw [hsessions, hconnections, h.names]
  · rw [hsessions]
    exact h.nodup
  · rw [hsessions, hconnections]
    exact h.fits
  · rw [htracked, hconnections]
    exact h.tracked
  · rw [Opened, hsessions]
    exact (hlisted id hid).elim (h.opened id) h.opened_of_tracked

end Sound

/-! ## A change of one connection -/

/-- The server in which a connection and its session have changed. -/
def turn (v : Server) (i : Nat) (c : Connection) (t : Session) : Server :=
  { v with
    sessions := v.sessions.modify c.session fun _ => t
    connections := v.connections.set i c }

lemma names_turn (v : Server) (i : Nat) (c : Connection) (t : Session) :
    Named.names (v.turn i c t).sessions = Named.names v.sessions :=
  Sessions.names_modify v.sessions c.session fun _ => t

/-- The connection `c` and its session `s` may become `c'` and `t`. -/
structure Turn (v : Server) (i : Nat) (c c' : Connection) (s t : Session) : Prop where
  connection : v.connections[i]? = some c
  session : Named.get? v.sessions c.session = some s
  same : c'.session = c.session
  fits : c'.Fits t
  rank : s.state.rank ≤ t.state.rank
  ended : c.stage = .ended → c'.stage = .ended

namespace Turn

lemma mem (h : v.Turn i c c' s t) : c ∈ v.connections := List.mem_of_getElem? h.connection

lemma get?_turn (h : v.Turn i c c' s t) (id : String) :
    Named.get? (v.turn i c' t).sessions id =
      if id = c.session then some t else Named.get? v.sessions id := by
  rw [turn, Sessions.get?_modify, h.same]
  split
  · rename_i hid
    rw [hid, h.session, Option.map_some]
  · rfl

lemma map_session_turn (h : v.Turn i c c' s t) :
    (v.turn i c' t).connections.map Connection.session = v.connections.map Connection.session := by
  rw [turn, List.map_set, h.same]
  apply List.ext_getElem?
  intro j
  rw [List.getElem?_set]
  split
  · rename_i hij
    subst hij
    split
    · rw [List.getElem?_map, h.connection, Option.map_some]
    · rename_i hlt
      rw [List.getElem?_eq_none (Nat.le_of_not_lt hlt)]
  · rfl

lemma mem_turn (h : v.Turn i c c' s t) : c' ∈ (v.turn i c' t).connections := by
  obtain ⟨hlt, -⟩ := List.getElem?_eq_some_iff.mp h.connection
  exact List.mem_iff_getElem?.mpr ⟨i, by simp [turn, hlt]⟩

/-- The other connections stay. -/
lemma mem_turn_of_ne (h : v.Turn i c c' s t) {a : Connection} (ha : a ∈ v.connections)
    (hne : a ≠ c) : a ∈ (v.turn i c' t).connections :=
  mem_set_of_ne h.connection ha hne c'

lemma opened_turn (h : v.Turn i c c' s t) (hid : v.Opened id) : (v.turn i c' t).Opened id := by
  obtain ⟨u, hu, hrank⟩ := hid
  rw [Opened, h.get?_turn]
  split
  · rename_i hid
    rw [hid, h.session] at hu
    cases hu
    exact ⟨t, rfl, Nat.le_trans hrank h.rank⟩
  · exact ⟨u, hu, hrank⟩

end Turn

/-- **One connection at a time.**  A change of one connection and its session leaves the server
sound if the connection fits its session again and the session is tracked as the connection
says. -/
lemma Sound.of_turn (h : v.Sound) (ht : v.Turn i c c' s t)
    (hconnections : v'.connections = (v.turn i c' t).connections)
    (hsessions : v'.sessions = (v.turn i c' t).sessions)
    (htracked : ∀ id, id ∈ v'.tracker.tracked ↔
      if id = c.session then c'.stage.isKept = true else id ∈ v.tracker.tracked)
    (hlisted : ∀ id ∈ v'.listed, id ∈ v.listed ∨ v.Opened id) : v'.Sound := by
  have hnodup : ((v.turn i c' t).connections.map Connection.session).Nodup := by
    rw [ht.map_session_turn, ← h.names]
    exact h.nodup
  -- a connection of the new list is the changed one, or one of the others
  have hcases : ∀ a ∈ (v.turn i c' t).connections,
      a = c' ∨ a.session ≠ c.session ∧ a ∈ v.connections := by
    intro a ha
    rcases List.mem_or_eq_of_mem_set ha with hmem | rfl
    · by_cases heq : a.session = c.session
      · left
        exact List.inj_on_of_nodup_map hnodup ha ht.mem_turn (heq.trans ht.same.symm)
      · exact Or.inr ⟨heq, hmem⟩
    · exact Or.inl rfl
  refine ⟨?_, ?_, fun a ha u hu => ?_, fun id => ?_, fun id hid => ?_⟩
  · rw [hsessions, hconnections, names_turn, ht.map_session_turn, h.names]
  · rw [hsessions, names_turn]
    exact h.nodup
  · rw [hconnections] at ha
    rw [hsessions, ht.get?_turn] at hu
    rcases hcases a ha with rfl | ⟨hne, hmem⟩
    · rw [ht.same, if_pos rfl] at hu
      cases hu
      exact ht.fits
    · rw [if_neg hne] at hu
      exact h.fits a hmem u hu
  · rw [htracked, hconnections]
    split
    · rename_i hid
      constructor
      · exact fun hkept => ⟨c', ht.mem_turn, ht.same.trans hid.symm, hkept⟩
      · rintro ⟨a, ha, rfl, hkept⟩
        rcases hcases a ha with rfl | ⟨hne, -⟩
        · exact hkept
        · exact absurd hid hne
    · rename_i hid
      rw [h.tracked]
      constructor
      · rintro ⟨a, ha, rfl, hkept⟩
        refine ⟨a, ht.mem_turn_of_ne ha ?_, rfl, hkept⟩
        rintro rfl
        exact hid rfl
      · rintro ⟨a, ha, rfl, hkept⟩
        rcases hcases a ha with rfl | ⟨-, hmem⟩
        · exact absurd ht.same hid
        · exact ⟨a, hmem, rfl, hkept⟩
  · rw [Opened, hsessions]
    exact ht.opened_turn ((hlisted id hid).elim (h.opened id) fun h => h)

end Server

end RemoteCall
