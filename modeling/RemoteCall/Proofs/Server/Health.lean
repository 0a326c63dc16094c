/-
# Which sessions an unhealthy server drains

A server that becomes unhealthy drains the active sessions among those that it tracks, and a
connection whose session is tracked later looks at the health itself.  The two meet: whoever is not
on the list has still to look.  What falls through is a session that its own client has suspended
before the list comes to it; it is not active, so it is not drained.
-/
import RemoteCall.Proofs.Server.Moves

namespace RemoteCall.Server

variable {P Q : String → Prop} {v v' : Server} {m : Move} {i k : Nat} {c c' : Connection}
  {s t : Session} {id : String}

/-! ## Who is taken care of -/

/-- A session has been told that it is over, or is over, or has a drain; or it is one of those that
`P` excuses. -/
def Covered (P : String → Prop) (v : Server) (id : String) : Prop :=
  v.Settled id ∨ (∃ d ∈ v.tracker.drains, d.session = id) ∨ P id

/-- A change of the health is still to look at a session. -/
def Considers (v : Server) (id : String) : Prop :=
  .flagged ∈ v.healthTasks ∨ ∃ ids, .considering ids ∈ v.healthTasks ∧ id ∈ ids

/-- Nobody is forgotten.  A suspended session is taken care of; a drain that has no more to tell has
settled its session; and the session of an established connection is taken care of while the server
is unhealthy, or is going to be. -/
structure Watched (P : String → Prop) (v : Server) : Prop where
  suspended : ∀ id s, Named.get? v.sessions id = some s → s.state = .suspending → v.Covered P id
  finished : ∀ d ∈ v.tracker.drains, d.stage.isFinal = true → v.Settled d.session
  watched : ∀ c ∈ v.connections, c.stage = .established →
    v.Covered P c.session ∨ v.tracker.healthy = true ∨ v.Considers c.session

/-- The drains of a server are still there, maybe in other stages. -/
def KeepsDrains (v v' : Server) : Prop :=
  ∀ d ∈ v.tracker.drains, ∃ d' ∈ v'.tracker.drains, d'.session = d.session

lemma Covered.mono (h : v.Covered P id) (hp : v.Precedes v') (hdrains : v.KeepsDrains v') :
    v'.Covered P id := by
  rcases h with h | ⟨d, hd, hid⟩ | h
  · exact Or.inl (hp.settled h)
  · obtain ⟨d', hd', hsession⟩ := hdrains d hd
    exact Or.inr (Or.inl ⟨d', hd', hsession.trans hid⟩)
  · exact Or.inr (Or.inr h)

namespace Watched

lemma mono (h : Watched P v) (hPQ : ∀ id, P id → Q id) : Watched Q v := by
  have hcovered : ∀ id, v.Covered P id → v.Covered Q id :=
    fun id hid => hid.imp_right fun hid => hid.imp_right (hPQ id)
  exact ⟨fun id s hs hstate => hcovered id (h.suspended id s hs hstate), h.finished,
    fun c hc hstage => (h.watched c hc hstage).imp_left (hcovered _)⟩

/-- What has to be seen to when the server goes on: sessions that are suspended, drains that
finish, connections that are established, and lists that get shorter. -/
lemma of_precedes (h : Watched P v) (hp : v.Precedes v') (hdrains : v.KeepsDrains v')
    (hsuspended : ∀ id t, Named.get? v'.sessions id = some t → t.state = .suspending →
      (∃ s, Named.get? v.sessions id = some s ∧ s.state = .suspending) ∨ v'.Covered P id)
    (hfinished : ∀ d' ∈ v'.tracker.drains, d'.stage.isFinal = true →
      d' ∈ v.tracker.drains ∨ v'.Settled d'.session)
    (hwatched : ∀ c' ∈ v'.connections, c'.stage = .established →
      (∃ c ∈ v.connections, c.session = c'.session ∧ c.stage = .established ∧
        (v.tracker.healthy = true ∨ v.Considers c.session →
          v'.Covered P c.session ∨ v'.tracker.healthy = true ∨ v'.Considers c.session)) ∨
      v'.Covered P c'.session ∨ v'.tracker.healthy = true) : Watched P v' := by
  refine ⟨fun id t ht hstate => ?_, fun d' hd' hfinal => ?_, fun c' hc' hstage => ?_⟩
  · rcases hsuspended id t ht hstate with ⟨s, hs, hstate'⟩ | hcovered
    · exact (h.suspended id s hs hstate').mono hp hdrains
    · exact hcovered
  · exact (hfinished d' hd' hfinal).elim (fun hd => hp.settled (h.finished d' hd hfinal)) fun h => h
  · rcases hwatched c' hc' hstage with ⟨c, hc, hsession, hstage', hgoesOn⟩ | hcovered | hhealthy
    · rw [← hsession]
      exact (h.watched c hc hstage').elim (fun hc => Or.inl (hc.mono hp hdrains)) hgoesOn
    · exact Or.inl hcovered
    · exact Or.inr (Or.inl hhealthy)

/-- A change of lists that no connection and no session is concerned with. -/
lemma of_eq (h : Watched P v) (hconnections : v'.connections = v.connections)
    (hsessions : v'.sessions = v.sessions) (htold : v'.told = v.told)
    (hdrains : v.KeepsDrains v')
    (hfinished : ∀ d' ∈ v'.tracker.drains, d'.stage.isFinal = true → d' ∈ v.tracker.drains)
    (hgoesOn : ∀ c ∈ v.connections, c.stage = .established →
      v.tracker.healthy = true ∨ v.Considers c.session →
        v'.Covered P c.session ∨ v'.tracker.healthy = true ∨ v'.Considers c.session) :
    Watched P v' := by
  refine h.of_precedes (.of_eq hconnections hsessions htold) hdrains (fun id t ht hstate => ?_)
    (fun d' hd' hfinal => Or.inl (hfinished d' hd' hfinal)) fun c hc hstage => ?_
  · rw [hsessions] at ht
    exact Or.inl ⟨t, ht, hstate⟩
  · rw [hconnections] at hc
    exact Or.inl ⟨c, hc, rfl, hstage, hgoesOn c hc hstage⟩

/-- A turn of a connection, with changes of drains. -/
lemma of_turn (h : Watched P v) (ht : v.Turn i c c' s t)
    (hconnections : v'.connections = (v.turn i c' t).connections)
    (hsessions : v'.sessions = (v.turn i c' t).sessions) (htold : ∀ id ∈ v.told, id ∈ v'.told)
    (hdrains : v.KeepsDrains v')
    (hfinished : ∀ d' ∈ v'.tracker.drains, d'.stage.isFinal = true →
      d' ∈ v.tracker.drains ∨ v'.Settled d'.session)
    (htasks : v'.healthTasks = v.healthTasks) (hhealthy : v'.tracker.healthy = v.tracker.healthy)
    (hquiet : t.state = .suspending → s.state = .suspending ∨ v'.Covered P c.session)
    (hestablished : c'.stage = .established →
      c.stage = .established ∨ v'.Covered P c.session ∨ v'.tracker.healthy = true) :
    Watched P v' := by
  have hgoesOn : ∀ id, v.tracker.healthy = true ∨ v.Considers id →
      v'.Covered P id ∨ v'.tracker.healthy = true ∨ v'.Considers id := by
    intro id hid
    rw [Considers, htasks, hhealthy]
    exact Or.inr hid
  refine h.of_precedes (.of_turn ht hconnections hsessions htold) hdrains
    (fun id u hu hstate => ?_) hfinished fun a ha hstage => ?_
  · rw [hsessions, ht.get?_turn] at hu
    split at hu
    · rename_i hid
      cases hu
      rw [hid]
      exact (hquiet hstate).imp_left fun hs => ⟨s, ht.session, hs⟩
    · exact Or.inl ⟨u, hu, hstate⟩
  · rw [hconnections] at ha
    rcases List.mem_or_eq_of_mem_set ha with ha | rfl
    · exact Or.inl ⟨a, ha, rfl, hstage, hgoesOn _⟩
    · rcases hestablished hstage with hc | hcovered
      · exact Or.inl ⟨c, ht.mem, ht.same.symm, hc, hgoesOn _⟩
      · rw [ht.same]
        exact Or.inr hcovered

end Watched

lemma keepsDrains_of_eq (h : v'.tracker.drains = v.tracker.drains) : v.KeepsDrains v' :=
  fun d hd => ⟨d, h.symm ▸ hd, rfl⟩

/-- A window that settings can hold is over before the clock of a server ends. -/
lemma window_drainPolicy_lt (settings : ServerSettings) :
    (drainPolicy settings).window.nanos < Duration.clockEnd.nanos / 2 := by
  have hword := settings.drainTimeout.toNat_lt
  simp only [drainPolicy, Duration.ofMillis, Duration.clockEnd, Duration.ofSeconds]
  omega

/-! ## Moves -/

namespace Watched

variable (h : Watched P v) (hsound : v.Sound)

include h

/-- A turn of a connection beside which nothing happens. -/
lemma of_turn_self (ht : v.Turn i c c' s t) (told : List String) (htold : ∀ id ∈ v.told, id ∈ told)
    (hquiet : t.state = .suspending → s.state = .suspending ∨ v.Covered P c.session)
    (hestablished : c'.stage = .established → c.stage = .established ∨
      ({ v.turn i c' t with told } : Server).Covered P c.session ∨ v.tracker.healthy = true) :
    Watched P { v.turn i c' t with told } :=
  h.of_turn ht rfl rfl htold (keepsDrains_of_eq rfl) (fun _ hd _ => Or.inl hd) rfl rfl
    (fun hstate => (hquiet hstate).imp_right fun hcovered =>
      hcovered.mono (.of_turn ht rfl rfl htold) (keepsDrains_of_eq rfl)) hestablished

lemma takes (ht : v.Takes m v') (hP : ∀ id, v.Suspends m id → v.Covered P id) :
    Watched P v' := by
  rcases ht with rfl | ⟨i, c, c', s, t, ht, rfl⟩
  · exact h
  · exact h.of_turn_self ht.toTurn v.told (fun _ hid => hid)
      (fun hstate => (ht.quiet hstate).imp_right (hP _))
      fun hstage => Or.inl (ht.established hstage)

include hsound

/-- A session that is told that it is over is not suspended by that. -/
lemma tell (hid : v.Opened id) (force : Bool) : Watched P (v.tell id force) := by
  rcases hsound.tell_turn hid force with heq | ⟨i, c, s, t, -, ht, hkeeps, told, htold, heq⟩ <;>
    rw [heq]
  · exact h
  · refine h.of_turn_self ht told htold (fun hstate => ?_) Or.inl
    rcases hkeeps with hstate' | hstate' <;> rw [hstate'] at hstate
    · exact Or.inl hstate
    · cases hstate

lemma accept (now : Duration) (hid : id ∉ Named.names v.sessions) (remote : SocketAddress) :
    Watched P (v.accept now id remote) := by
  have hp := (hsound.steps_accept now hid remote).2
  by_cases haccepting : v.accepting = true
  · obtain ⟨s, rfl, hstate, -, -, heq⟩ := Sound.accept_eq haccepting now id remote
    rw [heq] at hp ⊢
    refine h.of_precedes hp (keepsDrains_of_eq rfl) (fun j t ht hsuspended => ?_)
      (fun _ hd _ => Or.inl hd) fun c hc hstage => ?_
    · rw [Sessions.add, Named.put_of_notMem hid, Named.get?_append, Option.or_eq_some_iff] at ht
      rcases ht with ht | ⟨-, ht⟩
      · exact Or.inl ⟨t, ht, hsuspended⟩
      · have hmem := List.mem_singleton.mp (Named.mem_of_get? ht)
        cases hmem
        rw [hstate] at hsuspended
        cases hsuspended
    · rcases List.mem_append.mp hc with hc | hc
      · exact Or.inl ⟨c, hc, rfl, hstage, Or.inr⟩
      · rw [List.mem_singleton] at hc
        rw [hc] at hstage
        cases hstage
  · rwa [Server.accept, if_neg haccepting]

lemma track (hc : v.connections[i]? = some c) (hstage : c.stage = .opened) :
    Watched P ({ v with tracker := v.tracker.insert c.session }.setConnection i
      { c with stage := .tracked }) := by
  obtain ⟨s, hs⟩ := hsound.exists_session (List.mem_of_getElem? hc)
  obtain ⟨ht, hsessions⟩ := hsound.turn_tracked hc hstage hs
  exact h.of_turn ht rfl hsessions (fun _ hid => hid) (keepsDrains_of_eq rfl)
    (fun _ hd _ => Or.inl hd) rfl rfl Or.inl nofun

lemma leave (hc : v.connections[i]? = some c) (hstage : c.stage = .leaving) :
    Watched P ({ v with tracker := (v.tracker.remove c.session).2 }.setConnection i
      { c with stage := .ended }) := by
  obtain ⟨s, hs⟩ := hsound.exists_session (List.mem_of_getElem? hc)
  obtain ⟨ht, hsessions⟩ := hsound.turn_left hc hstage hs
  exact h.of_turn ht rfl hsessions (fun _ hid => hid) (keepsDrains_of_eq rfl)
    (fun _ hd _ => Or.inl hd) rfl rfl Or.inl nofun

omit h hsound in
/-- An excuse is not needed by a session that is taken care of. -/
lemma of_excused (h : Watched (fun j => P j ∨ j = id) v) (hid : v.Covered P id) : Watched P v := by
  have hcovered : ∀ j, v.Covered (fun j => P j ∨ j = id) j → v.Covered P j := by
    rintro j (hj | hj | hj | rfl)
    · exact Or.inl hj
    · exact Or.inr (Or.inl hj)
    · exact Or.inr (Or.inr hj)
    · exact hid
  exact ⟨fun j s hs hstate => hcovered j (h.suspended j s hs hstate), h.finished,
    fun c hc hstage => (h.watched c hc hstage).imp_left (hcovered _)⟩

/-- A connection that finds the server unhealthy tells its session so. -/
lemma checkHealth (hc : v.connections[i]? = some c) (hstage : c.stage = .tracked) :
    Watched P (v.checkHealth i c) := by
  obtain ⟨s, hs⟩ := hsound.exists_session (List.mem_of_getElem? hc)
  obtain ⟨ht, heq⟩ := hsound.turn_established hc hstage hs
  have hsteps := hsound.steps_established hc hstage hs
  have hid := hsound.opened_of_isKept (List.mem_of_getElem? hc) (by rw [hstage]; rfl)
  simp only [Server.checkHealth, heq]
  split
  · rename_i hhealthy
    exact h.of_turn_self ht v.told (fun _ hid => hid) Or.inl
      fun _ => Or.inr (Or.inr hhealthy)
  · have hready : ∀ u, Named.get? (v.turn i { c with stage := .established } s).sessions c.session =
        some u → u.Ready := by
      intro u hu
      rw [ht.get?_turn, if_pos rfl] at hu
      cases hu
      exact ht.fits.1
    -- while it is looked at, the session is excused
    have hexcused : Watched (fun j => P j ∨ j = c.session)
        (v.turn i { c with stage := .established } s) :=
      (h.mono fun j hj => Or.inl hj).of_turn_self ht v.told (fun _ hid => hid)
        Or.inl fun _ => Or.inr (Or.inl (Or.inr (Or.inr (Or.inr rfl))))
    exact (hexcused.tell hsteps.1 (hsteps.2.opened hid) false).of_excused
      (Or.inl (hsteps.1.settled_tell (hsteps.2.opened hid) fun _ => hready))

/-- A drain takes care of its session up to its own end. -/
lemma drain (hwindow : v.tracker.policy.window.nanos < Duration.clockEnd.nanos / 2)
    (now : Duration) (k : Nat) : Watched P (v.stepDrain now k) := by
  have hp := (hsound.steps_drain now k).2
  rcases stepDrain_cases v now k with heq | ⟨d, s, hd, hs, heq⟩ <;> rw [heq] at hp ⊢
  · exact h
  obtain ⟨i, c, s', hsession, hs', hturn⟩ := hsound.exists_turn
    (hsound.opened_of_drain (List.mem_of_getElem? hd))
  rw [hs] at hs'
  cases hs'
  obtain ⟨ht, honSession⟩ := hturn _ (d.stage.step_advances v.tracker.policy (horizon now) now s)
  rw [honSession] at hp ⊢
  have hmem := mem_set_self hd (d.goTo (d.stage.step v.tracker.policy (horizon now) now s).1)
  refine h.of_turn ht rfl rfl hp.told (fun d₀ hd₀ => ?_) (fun d' hd' hfinal => ?_) rfl rfl
    (fun _ => Or.inr (Or.inr (Or.inl ⟨_, hmem, hsession.symm⟩))) Or.inl
  · by_cases heq : d₀ = d
    · exact ⟨_, hmem, by rw [heq]; rfl⟩
    · exact ⟨d₀, mem_set_of_ne hd hd₀ heq _, rfl⟩
  · rcases List.mem_or_eq_of_mem_set hd' with hd' | rfl
    · exact Or.inl hd'
    · right
      have hclock : now.nanos + v.tracker.policy.window.nanos < (horizon now).nanos :=
        Nat.add_lt_add_left hwindow now.nanos
      rcases DrainStage.final_step_cases hclock hfinal with
        hd' | hover | ⟨quiet, limit, hparting, hlingering⟩
      · exact hp.settled (h.finished d (List.mem_of_getElem? hd) hd')
      · refine Or.inr ⟨_, ?_, hover⟩
        show Named.get? (v.turn i c _).sessions d.session = _
        rw [ht.get?_turn, if_pos hsession.symm]
      · have htells :
            d.tells (d.stage.step v.tracker.policy (horizon now) now s).1 = [d.session] := by
          rw [hlingering]
          simp only [Drain.tells, hparting]
        refine Or.inl (List.mem_append_right _ ?_)
        rw [htells]
        exact List.mem_singleton_self _

omit hsound in
/-- A server that becomes unhealthy is going to look at all its sessions. -/
lemma setHealthy (healthy : Bool) : Watched P (v.flagHealth healthy) := by
  refine h.of_eq rfl rfl rfl (keepsDrains_of_eq rfl) (fun _ hd _ => hd) fun c _ _ hgoesOn => ?_
  have htasks : (v.flagHealth healthy).healthTasks =
      v.healthTasks ++ if (v.tracker.healthy && !healthy) = true then [.flagged] else [] := rfl
  right
  cases healthy with
  | true => exact Or.inl rfl
  | false =>
    right
    rcases hgoesOn with hhealthy | hflagged | ⟨ids, hids, hmem⟩
    · left
      rw [htasks, hhealthy]
      exact List.mem_append_right _ (List.mem_singleton_self _)
    · left
      rw [htasks]
      exact List.mem_append_left _ hflagged
    · right
      rw [htasks]
      exact ⟨ids, List.mem_append_left _ hids, hmem⟩

/-- An established session that is not active is taken care of. -/
lemma covered_of_not_isActive (hc : c ∈ v.connections) (hstage : c.stage = .established)
    (hs : Named.get? v.sessions c.session = some s) (hactive : s.isActive = false) :
    v.Covered P c.session := by
  have hrank : 2 ≤ s.state.rank := (hsound.fits c hc s hs).rank_of_isKept (by rw [hstage]; rfl)
  rcases hstate : s.state
  case suspending => exact h.suspended c.session s hs hstate
  case disconnected => exact Or.inl (Or.inr ⟨s, hs, hstate⟩)
  case active =>
    rw [Session.isActive, hstate] at hactive
    cases hactive
  all_goals
    rw [hstate] at hrank
    exact absurd hrank (by decide)

/-- A change of the health lists all established connections, and leaves nobody out who is not taken
care of. -/
lemma stepHealth (k : Nat) : Watched P (v.stepHealth k) := by
  rcases hsound.stepHealth_cases k with heq | ⟨hk, heq⟩ | ⟨id, ids, s, hk, hs, heq⟩ <;> rw [heq]
  · exact h
  · refine h.of_eq rfl rfl rfl (keepsDrains_of_eq rfl) (fun _ hd _ => hd)
      fun c hc hstage hgoesOn => Or.inr (hgoesOn.imp_right fun hconsiders => ?_)
    rcases hconsiders with - | ⟨ids, hids, hmem⟩
    · exact Or.inr ⟨v.tracker.tracked, mem_set_self hk _,
        (hsound.mem_tracked hc).mpr (by rw [hstage]; rfl)⟩
    · exact Or.inr ⟨ids, mem_set_of_ne hk hids nofun _, hmem⟩
  · have hkeeps : ∀ d ∈ v.tracker.drains,
        d ∈ (if s.isActive = true then v.tracker.startDrains [id] else v.tracker).drains := by
      intro d hd
      split
      · exact List.mem_append_left _ hd
      · exact hd
    refine h.of_eq rfl rfl rfl (fun d hd => ⟨d, hkeeps d hd, rfl⟩) (fun d hd hfinal => ?_)
      fun c hc hstage hgoesOn => ?_
    · dsimp only at hd
      split at hd
      · refine (List.mem_append.mp hd).elim (fun hd => hd) fun hd => ?_
        rw [List.map_cons, List.map_nil, List.mem_singleton] at hd
        rw [hd] at hfinal
        cases hfinal
      · exact hd
    · rcases hgoesOn with hhealthy | hflagged | ⟨ids₀, hids₀, hmem⟩
      · refine Or.inr (Or.inl ?_)
        dsimp only
        split <;> exact hhealthy
      · exact Or.inr (Or.inr (Or.inl (mem_set_of_ne hk hflagged nofun _)))
      · by_cases hsame : ids₀ = id :: ids
        · rw [hsame] at hmem
          rcases List.mem_cons.mp hmem with rfl | hmem
          · -- it is this session's turn: it is active, or it is taken care of already
            left
            cases hactive : s.isActive with
            | true =>
              refine Or.inr (Or.inl ⟨_, List.mem_append_right _ (List.mem_singleton_self _), rfl⟩)
            | false =>
              exact (h.covered_of_not_isActive hsound hc hstage hs hactive).mono
                (.of_eq rfl rfl rfl) (keepsDrains_of_eq rfl)
          · exact Or.inr (Or.inr (Or.inr ⟨ids, mem_set_self hk _, hmem⟩))
        · exact Or.inr (Or.inr (Or.inr
            ⟨ids₀, mem_set_of_ne hk hids₀ (by simpa using hsame) _, hmem⟩))

omit h hsound in
lemma of_lists (h : Watched P v) (hconnections : v'.connections = v.connections)
    (hsessions : v'.sessions = v.sessions) (htold : v'.told = v.told)
    (htracker : v'.tracker = v.tracker) (htasks : v'.healthTasks = v.healthTasks) :
    Watched P v' := by
  refine h.of_eq hconnections hsessions htold (keepsDrains_of_eq (by rw [htracker]))
    (fun d hd _ => ?_) fun c _ _ hgoesOn => ?_
  · rwa [htracker] at hd
  · rw [Considers, htasks, htracker]
    exact Or.inr hgoesOn

lemma stepShutdown (k : Nat) : Watched P (v.stepShutdown k) := by
  rcases stepShutdown_cases v k with
    heq | ⟨waits, -, -, heq⟩ | ⟨-, heq⟩ | ⟨id, ids, hk, heq⟩ <;> rw [heq]
  · exact h
  · exact h.of_lists rfl rfl rfl rfl rfl
  · exact h.of_lists rfl rfl rfl rfl rfl
  · have hsteps := hsound.steps_setShutdown k (.telling ids) fun j hj =>
      Or.inl (mem_listed_of_shutdown hk (List.mem_cons_of_mem _ hj))
    have hset : Watched P { v with shutdowns := v.shutdowns.set k (.telling ids) } :=
      h.of_lists rfl rfl rfl rfl rfl
    exact hset.tell hsteps.1
      (hsteps.2.opened (hsound.opened id (mem_listed_of_shutdown hk List.mem_cons_self))) true

/-- **Every move leaves nobody forgotten**, if those are excused whom their clients suspend. -/
lemma next (hwindow : v.tracker.policy.window.nanos < Duration.clockEnd.nanos / 2)
    (hnew : ∀ now id remote, m = .accept now id remote → id ∉ Named.names v.sessions)
    (hP : ∀ id, v.Suspends m id → v.Covered P id) :
    Watched P (v.next m) := by
  cases m with
  | accept now id remote => exact h.accept hsound now (hnew now id remote rfl) remote
  | track i =>
    simp only [Server.next]
    split
    · split
      · exact h.track hsound ‹_› ‹_›
      · exact h
    · exact h
  | checkHealth i =>
    simp only [Server.next]
    split
    · split
      · exact h.checkHealth hsound ‹_› ‹_›
      · exact h
    · exact h
  | leave i =>
    simp only [Server.next]
    split
    · split
      · exact h.leave hsound ‹_› ‹_›
      · exact h
    · exact h
  | drain now k => exact h.drain hsound hwindow now k
  | setHealthy healthy => exact h.setHealthy healthy
  | stepHealth k => exact h.stepHealth hsound k
  | shutdown => exact h.of_lists rfl rfl rfl rfl rfl
  | endAccepting =>
    simp only [Server.next]
    split
    · exact h.of_lists rfl rfl rfl rfl rfl
    · exact h
  | stepShutdown k => exact h.stepShutdown hsound k
  | _ => exact h.takes (hsound.takes_of_isLocal rfl) hP

end Watched

/-! ## Runs -/

/-- The client of a session has suspended it in the course of a run, before the server has started a
drain for it or has told it that it is over. -/
def SuspendedByClient (v : Server) (ms : List Move) (id : String) : Prop :=
  ∃ before m after, ms = before ++ m :: after ∧ (v.run before).Suspends m id ∧
    (∀ d ∈ (v.run before).tracker.drains, d.session ≠ id) ∧ id ∉ (v.run before).told

/-- A server that has no sessions yet has forgotten nobody. -/
lemma IsNew.watched (hv : v.IsNew) : Watched P v := by
  refine ⟨fun id s hs => ?_, ?_, ?_⟩
  · rw [hv.sessions] at hs
    cases hs
  · rw [hv.drains]
    exact nofun
  · rw [hv.connections]
    exact nofun

/-- **Nobody is forgotten in any run**, apart from those whom their clients have suspended. -/
lemma IsNew.watched_run (hv : v.IsNew) {ms : List Move}
    (hnames : (ms.filterMap Move.newName?).Nodup) :
    Watched (v.SuspendedByClient ms) (v.run ms) := by
  induction ms using List.reverseRecOn with
  | nil => exact hv.watched
  | append_singleton ms m ih =>
    have hms : (ms.filterMap Move.newName?).Nodup := by
      rw [List.filterMap_append] at hnames
      exact (List.nodup_append.mp hnames).1
    have hbefore : Watched (v.SuspendedByClient (ms ++ [m])) (v.run ms) := by
      refine (ih hms).mono ?_
      rintro id ⟨before, m', after, rfl, hsuspends⟩
      exact ⟨before, m', after ++ [m], by simp, hsuspends⟩
    rw [run_concat]
    have hwindow : (v.run ms).tracker.policy.window.nanos < Duration.clockEnd.nanos / 2 := by
      rw [policy_run, hv.policy]
      exact window_drainPolicy_lt v.settings
    refine hbefore.next (hv.sound_run hms) hwindow (hv.name_notMem hnames) fun id hid => ?_
    by_cases htold : id ∈ (v.run ms).told
    · exact Or.inl (Or.inl htold)
    by_cases hdrains : ∃ d ∈ (v.run ms).tracker.drains, d.session = id
    · exact Or.inr (Or.inl hdrains)
    · exact Or.inr (Or.inr
        ⟨ms, m, [], rfl, hid, fun d hd hsession => hdrains ⟨d, hd, hsession⟩, htold⟩)

/-! ## The main theorem -/

/-- No change of the health is under way: each has looked at all sessions on its list. -/
def IsHealthSettled (v : Server) : Prop := ∀ task ∈ v.healthTasks, task = .considering []

/-- No connection is on its way from the end of the handshake to its look at the health. -/
def IsSetUp (v : Server) : Prop :=
  ∀ c ∈ v.connections, c.stage ≠ .opened ∧ c.stage ≠ .tracked

instance (v : Server) : Decidable v.IsHealthSettled :=
  inferInstanceAs (Decidable (∀ task ∈ v.healthTasks, task = .considering []))

instance (v : Server) : Decidable v.IsSetUp :=
  inferInstanceAs (Decidable (∀ c ∈ v.connections, c.stage ≠ .opened ∧ c.stage ≠ .tracked))

/-- **An unhealthy server drains every session that its client leaves active.**  While the server is
unhealthy, and no change of the health and no setting up of a connection is under way, every tracked
session is over, has been told so, or has a drain that has not ended; or it was suspended by its own
client before the server came to it. -/
theorem drained_of_unhealthy (hv : v.IsNew) {ms : List Move}
    (hnames : (ms.filterMap Move.newName?).Nodup) (hhealthy : (v.run ms).tracker.healthy = false)
    (htasks : (v.run ms).IsHealthSettled) (hsetUp : (v.run ms).IsSetUp) :
    ∀ id ∈ (v.run ms).tracker.tracked, ∃ s, Named.get? (v.run ms).sessions id = some s ∧
      (s.state = .disconnected ∨ id ∈ (v.run ms).told ∨
        (∃ d ∈ (v.run ms).tracker.drains, d.session = id ∧ d.stage ≠ .ended) ∨
        v.SuspendedByClient ms id) := by
  intro id hid
  have hsound := hv.sound_run hnames
  have hwatched := hv.watched_run hnames
  obtain ⟨c, hc, rfl, hkept⟩ := (hsound.tracked id).mp hid
  obtain ⟨s, hs⟩ := hsound.exists_session hc
  refine ⟨s, hs, ?_⟩
  have hsettled : (v.run ms).Settled c.session →
      s.state = .disconnected ∨ c.session ∈ (v.run ms).told := by
    rintro (htold | ⟨t, ht, hover⟩)
    · exact Or.inr htold
    · rw [hs] at ht
      cases ht
      exact Or.inl hover
  rcases hstage : c.stage with _ | _ | _ | _ | _ | _ | _
  case opened => exact absurd hstage (hsetUp c hc).1
  case tracked => exact absurd hstage (hsetUp c hc).2
  case leaving =>
    have hfits := hsound.fits c hc s hs
    simp only [Connection.Fits, hstage] at hfits
    exact Or.inl hfits
  case established =>
    rcases hwatched.watched c hc hstage with hcovered | htrue | hconsiders
    · rcases hcovered with hid | ⟨d, hd, hsession⟩ | hclient
      · exact (hsettled hid).imp_right Or.inl
      · by_cases hended : d.stage = .ended
        · have hfinal := hwatched.finished d hd (by rw [hended]; rfl)
          rw [hsession] at hfinal
          exact (hsettled hfinal).imp_right Or.inl
        · exact Or.inr (Or.inr (Or.inl ⟨d, hd, hsession, hended⟩))
      · exact Or.inr (Or.inr (Or.inr hclient))
    · rw [hhealthy] at htrue
      cases htrue
    · -- no change of the health has anything left to look at
      rcases hconsiders with hflagged | ⟨ids, hids, hmem⟩
      · cases htasks _ hflagged
      · cases htasks _ hids
        cases hmem
  all_goals
    rw [hstage] at hkept
    cases hkept

/-- Of two clients, the second suspends its session; the first has a drain when all have been looked
at. -/
theorem drained_of_unhealthy_pair :
    let ms := establish 0 "s" ++ establish 1 "t" ++
      [.receive ⟨0⟩ 1 (.frame (.make .newest .suspend 0 [])), .setHealthy false,
        .stepHealth 0, .stepHealth 0, .stepHealth 0]
    let v := standard.run ms
    v.tracker.healthy = false ∧ v.IsHealthSettled ∧ v.IsSetUp ∧ v.tracker.tracked = ["s", "t"] ∧
      ∀ id ∈ v.tracker.tracked, ∃ s, Named.get? v.sessions id = some s ∧
        (s.state = .disconnected ∨ id ∈ v.told ∨
          (∃ d ∈ v.tracker.drains, d.session = id ∧ d.stage ≠ .ended) ∨
          standard.SuspendedByClient ms id) := by
  intro ms v
  have hnames : (ms.filterMap Move.newName?).Nodup := by decide +kernel
  have hhealthy : v.tracker.healthy = false := by decide +kernel
  have htasks : v.IsHealthSettled := by decide +kernel
  have hsetUp : v.IsSetUp := by decide +kernel
  exact ⟨hhealthy, htasks, hsetUp, by decide +kernel,
    drained_of_unhealthy isNew_standard hnames hhealthy htasks hsetUp⟩

/-- The excuse is needed: a client that suspends its session in time keeps it on an unhealthy
server, without a DISCONNECT and without a drain. -/
theorem undrained_of_suspended_by_client :
    let v := standard.run (establish 0 "s" ++
      [.receive ⟨0⟩ 0 (.frame (.make .newest .suspend 0 [])), .setHealthy false,
        .stepHealth 0, .stepHealth 0])
    v.tracker.healthy = false ∧ v.IsHealthSettled ∧ v.IsSetUp ∧ v.tracker.tracked = ["s"] ∧
      (Named.get? v.sessions "s").map Session.state = some .suspending ∧
      v.told = [] ∧ v.tracker.drains = [] := by
  decide +kernel

end RemoteCall.Server
