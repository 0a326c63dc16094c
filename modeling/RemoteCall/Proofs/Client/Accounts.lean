/-
# Every call is accounted for

Each call that was made is in exactly one place: with the task that sends it, among the entries, or
among the outcomes reported.  Each session counts its entries, and those of calls that are about to
be entered.  The numbers that a session has handed out are all different, so that an entry never
puts out another one.  Every single step of sending and of clearing out keeps these accounts, and so
does every run, until the numbers of a session are used up.

A call stays with a task that has broken off, and with it the count of the session: no later step
takes either back.
-/
import RemoteCall.Proofs.Client.Views

namespace RemoteCall

namespace Calls

/-! ## Calls that are being sent -/

namespace Sending

/-- The call has neither an entry nor an outcome. -/
def holds (p : Sending) : Bool :=
  match p.stage with
  | .checked | .numbered _ | .counted _ | .brokenOff => true
  | _ => false

/-- The place of the entry that the call is going to have, when it has a number. -/
def place? (p : Sending) : Option CallKey :=
  match p.stage with
  | .numbered n | .counted n => some { session := p.session, correlation := n }
  | _ => none

/-- The call is counted, and has no entry. -/
def isCounted (p : Sending) : Bool :=
  match p.stage with
  | .counted _ | .brokenOff => true
  | _ => false

end Sending

variable {x : Calls} {l : List Sending} {a : List (Nat × CallKey)} {p : Sending} {id : String}

/-! ## The accounts -/

/-- In how many places a call is. -/
def places (x : Calls) (l : List Sending) (t : Nat) : Nat :=
  l.countP (fun p => p.holds && p.ticket == t) +
    x.correlator.pending.countP (fun p => p.ticket == t) + x.reported.countP (fun r => r.1 == t)

/-- How many calls a session should count. -/
def due (x : Calls) (l : List Sending) (id : String) : Nat :=
  x.correlator.pending.countP (fun p => p.key.session == id) +
    l.countP (fun p => p.isCounted && p.session == id)

/-- The accounts of a client while the calls in `l` are being sent, where `a` are the places that
were handed out so far, each with the call that it was given to. -/
structure Accounted (x : Calls) (l : List Sending) (a : List (Nat × CallKey)) : Prop where
  known : ∀ p ∈ l, ∃ s, x.session? p.session = some s
  once : ∀ t < x.made, x.places l t = 1
  unmade : ∀ t, x.made ≤ t → x.places l t = 0
  outstanding : ∀ id s, x.session? id = some s → s.outstanding = x.due l id
  number : ∀ id s, x.session? id = some s →
    s.nextCorrelation.toNat = a.countP (fun g => g.2.session == id) + 1
  distinct : (a.map Prod.snd).Nodup
  below : ∀ g ∈ a, 0 < g.2.correlation.toNat ∧
    ∃ s, x.session? g.2.session = some s ∧ g.2.correlation.toNat < s.nextCorrelation.toNat
  placed : ∀ p ∈ l, ∀ key, p.place? = some key → (p.ticket, key) ∈ a
  entered : ∀ p ∈ x.correlator.pending, (p.ticket, p.key) ∈ a

/-- Where no call changes the number of its places, every call stays in one. -/
lemma Accounted.once_congr (h : x.Accounted l a) {y : Calls} {l' : List Sending}
    (hmade : y.made = x.made) (hplaces : ∀ t, y.places l' t = x.places l t) :
    (∀ t < y.made, y.places l' t = 1) ∧ ∀ t, y.made ≤ t → y.places l' t = 0 := by
  rw [hmade]
  exact ⟨fun t ht => (hplaces t).trans (h.once t ht),
    fun t ht => (hplaces t).trans (h.unmade t ht)⟩

/-- The order in which the calls that are being sent are listed does not matter. -/
lemma Accounted.perm {l' : List Sending} (h : x.Accounted l a) (hl : l.Perm l') :
    x.Accounted l' a := by
  have hplaces : ∀ t, x.places l' t = x.places l t := by
    intro t
    rw [places, places, hl.countP_eq]
  obtain ⟨honce, hunmade⟩ := h.once_congr rfl hplaces
  refine ⟨fun p hp => h.known p (hl.mem_iff.mpr hp), honce, hunmade, ?_, h.number, h.distinct,
    h.below, fun p hp => h.placed p (hl.mem_iff.mpr hp), h.entered⟩
  intro id s hs
  rw [h.outstanding id s hs, due, due, hl.countP_eq]

/-- Two calls that were given one place are one call. -/
lemma Accounted.eq_of_key (h : x.Accounted l a) {t t' : Nat} {key : CallKey} (ht : (t, key) ∈ a)
    (ht' : (t', key) ∈ a) : t = t' :=
  congrArg Prod.fst (List.inj_on_of_nodup_map h.distinct ht ht' rfl)

lemma Accounted.places_le_one (h : x.Accounted l a) (t : Nat) : x.places l t ≤ 1 := by
  rcases Nat.lt_or_ge t x.made with ht | ht
  · exact Nat.le_of_eq (h.once t ht)
  · rw [h.unmade t ht]
    exact Nat.zero_le 1

/-- Entries have different places, since two calls that were given one place are one call, and that
one has one entry. -/
lemma Accounted.keyed (h : x.Accounted l a) : x.Keyed := by
  rw [Keyed, List.nodup_iff_count_le_one]
  intro key
  rw [List.count, List.countP_map]
  by_cases hkey : ∃ p ∈ x.correlator.pending, p.key = key
  · -- all entries of the place are entries of the call that was given the place
    obtain ⟨p, hp, rfl⟩ := hkey
    have hle : x.correlator.pending.countP ((· == p.key) ∘ Pending.key) ≤
        x.correlator.pending.countP fun q => q.ticket == p.ticket := by
      refine List.countP_mono_left fun q hq hqp => beq_iff_eq.mpr ?_
      have hq := h.entered q hq
      rw [beq_iff_eq.mp hqp] at hq
      exact h.eq_of_key hq (h.entered p hp)
    have hone := h.places_le_one p.ticket
    rw [places] at hone
    omega
  · have hzero : x.correlator.pending.countP ((· == key) ∘ Pending.key) = 0 := by
      refine List.countP_eq_zero.mpr fun p hp hpk => hkey ⟨p, hp, beq_iff_eq.mp hpk⟩
    omega

/-- A call that is about to be entered finds its place free. -/
lemma Accounted.free (h : x.Accounted (p :: l) a) {key : CallKey} (hp : p.place? = some key) :
    ∀ q ∈ x.correlator.pending, q.key ≠ key := by
  rintro q hq rfl
  have ht : q.ticket = p.ticket :=
    h.eq_of_key (h.entered q hq) (h.placed p List.mem_cons_self q.key hp)
  have hholds : p.holds = true := by
    rw [Sending.place?] at hp
    rw [Sending.holds]
    split at hp
    · next hstage => rw [hstage]
    · next hstage => rw [hstage]
    · cases hp
  -- otherwise the call would be with its task and among the entries
  have hl : 0 < (p :: l).countP fun r => r.holds && r.ticket == p.ticket :=
    List.countP_pos_iff.mpr ⟨p, List.mem_cons_self, by rw [hholds, beq_self_eq_true]; rfl⟩
  have hpending : 0 < x.correlator.pending.countP fun r => r.ticket == p.ticket :=
    List.countP_pos_iff.mpr ⟨q, hq, beq_iff_eq.mpr ht⟩
  have hone := h.places_le_one p.ticket
  rw [places] at hone
  omega

/-- Taking out an entry never holds the count of its session at zero. -/
lemma Accounted.outstanding_pos (h : x.Accounted l a) {q : Pending}
    (hq : q ∈ x.correlator.pending) {s : Session} (hs : x.session? q.key.session = some s) :
    0 < s.outstanding := by
  have hpos : 0 < x.correlator.pending.countP fun r => r.key.session == q.key.session :=
    List.countP_pos_iff.mpr ⟨q, hq, beq_self_eq_true _⟩
  rw [h.outstanding _ s hs, due]
  omega

/-! ## Steps that change sessions -/

lemma exists_session?_onSession {i : String} (f : Session → Session)
    (h : ∃ s, x.session? i = some s) : ∃ s, (x.onSession id f).session? i = some s := by
  obtain ⟨s, hs⟩ := h
  by_cases hi : i = id
  · subst hi
    exact ⟨f s, session?_onSession_self hs f⟩
  · exact ⟨s, (session?_onSession_of_ne hi f).trans hs⟩

/-- A session after a change is the changed one, or another one that was there before. -/
lemma session?_onSession_cases {i : String} {f : Session → Session} {s' : Session}
    (h : (x.onSession id f).session? i = some s') :
    (i = id ∧ ∃ s, x.session? id = some s ∧ s' = f s) ∨ (i ≠ id ∧ x.session? i = some s') := by
  by_cases hi : i = id
  · subst hi
    rw [session?_onSession, if_pos rfl] at h
    obtain ⟨s, hs, rfl⟩ := Option.map_eq_some_iff.mp h
    exact Or.inl ⟨rfl, s, hs, rfl⟩
  · rw [session?_onSession_of_ne hi] at h
    exact Or.inr ⟨hi, h⟩

/-- A change of a session that gives out no number. -/
lemma Accounted.numbers_onSession (h : x.Accounted l a) (id : String) {f : Session → Session}
    (hf : ∀ s, x.session? id = some s → (f s).nextCorrelation = s.nextCorrelation) :
    (∀ i s, (x.onSession id f).session? i = some s →
        s.nextCorrelation.toNat = a.countP (fun g => g.2.session == i) + 1) ∧
      ∀ g ∈ a, 0 < g.2.correlation.toNat ∧
        ∃ s, (x.onSession id f).session? g.2.session = some s ∧
          g.2.correlation.toNat < s.nextCorrelation.toNat := by
  constructor
  · intro i s' hs'
    rcases session?_onSession_cases hs' with ⟨rfl, s, hs, rfl⟩ | ⟨-, hs⟩
    · rw [hf s hs]
      exact h.number i s hs
    · exact h.number i s' hs
  · intro g hg
    obtain ⟨hpos, s, hs, hlt⟩ := h.below g hg
    refine ⟨hpos, ?_⟩
    by_cases hi : g.2.session = id
    · subst hi
      exact ⟨f s, session?_onSession_self hs f, by rwa [hf s hs]⟩
    · exact ⟨s, (session?_onSession_of_ne hi f).trans hs, hlt⟩

/-- A use of a session that leaves its counters alone. -/
lemma Accounted.onSession (h : x.Accounted l a) {f : Session → Session}
    (hf : ∀ s, x.session? id = some s →
      (f s).nextCorrelation = s.nextCorrelation ∧ (f s).outstanding = s.outstanding) :
    (x.onSession id f).Accounted l a := by
  obtain ⟨hnumber, hbelow⟩ := h.numbers_onSession id fun s hs => (hf s hs).1
  refine ⟨?_, h.once, h.unmade, ?_, hnumber, h.distinct, hbelow, h.placed, h.entered⟩
  · exact fun p hp => exists_session?_onSession f (h.known p hp)
  · intro i s' hs'
    rcases session?_onSession_cases hs' with ⟨rfl, s, hs, rfl⟩ | ⟨-, hs⟩
    · rw [(hf s hs).2]
      exact h.outstanding i s hs
    · exact h.outstanding i s' hs

/-! ## Steps of sending -/

lemma places_cons (x : Calls) (p : Sending) (l : List Sending) (t : Nat) :
    x.places (p :: l) t = x.places l t + if p.holds && p.ticket == t then 1 else 0 := by
  rw [places, places, List.countP_cons]
  omega

lemma due_cons (x : Calls) (p : Sending) (l : List Sending) (id : String) :
    x.due (p :: l) id = x.due l id + if p.isCounted && p.session == id then 1 else 0 := by
  rw [due, due, List.countP_cons]
  omega

/-- The call made next gets its first place. -/
lemma Accounted.once_succ (h : x.Accounted l a) {f : Nat → Nat}
    (hf : ∀ t, f t = x.places l t + if x.made == t then 1 else 0) :
    (∀ t < x.made + 1, f t = 1) ∧ ∀ t, x.made + 1 ≤ t → f t = 0 := by
  constructor
  · intro t ht
    rw [hf]
    rcases Nat.lt_succ_iff_lt_or_eq.mp ht with ht | rfl
    · rw [h.once t ht, if_neg (by simpa using Nat.ne_of_gt ht)]
    · rw [h.unmade _ (Nat.le_refl _), if_pos (beq_self_eq_true _)]
  · intro t ht
    have hne : x.made ≠ t := Nat.ne_of_lt ht
    rw [hf, h.unmade t (Nat.le_of_succ_le ht), if_neg (by simpa using hne)]

/-- A call that is refused at once has its outcome. -/
lemma Accounted.refused (h : x.Accounted l a) (o : Outcome) :
    ({ x with made := x.made + 1 }.report x.made o).Accounted l a := by
  obtain ⟨honce, hunmade⟩ := h.once_succ
    (f := ({ x with made := x.made + 1 }.report x.made o).places l) fun t => by
      show _ + _ + List.countP _ (_ ++ [_]) = _
      rw [List.countP_append, List.countP_singleton, ← Nat.add_assoc]
      rfl
  exact ⟨h.known, honce, hunmade, h.outstanding, h.number, h.distinct, h.below, h.placed,
    h.entered⟩

/-- A call that begins to be sent is with its task. -/
lemma Accounted.begun (h : x.Accounted l a) (hp : p.stage = .checked) (ht : p.ticket = x.made)
    (hs : ∃ s, x.session? p.session = some s) :
    ({ x with made := x.made + 1 } : Calls).Accounted (p :: l) a := by
  have hholds : p.holds = true := by rw [Sending.holds, hp]
  have hcounted : p.isCounted = false := by rw [Sending.isCounted, hp]
  have hplace : p.place? = none := by rw [Sending.place?, hp]
  obtain ⟨honce, hunmade⟩ := h.once_succ (f := x.places (p :: l)) fun t => by
    rw [places_cons, hholds, ht, Bool.true_and]
  refine ⟨?_, honce, hunmade, ?_, h.number, h.distinct, h.below, ?_, h.entered⟩
  · exact List.forall_mem_cons.mpr ⟨hs, h.known⟩
  · intro i s hs
    rw [due_cons, hcounted, Bool.false_and]
    exact h.outstanding i s hs
  · refine List.forall_mem_cons.mpr ⟨?_, h.placed⟩
    intro key hkey
    rw [hplace] at hkey
    cases hkey

/-- Another task in the place of one, which holds and counts the call as that one did. -/
lemma Accounted.replace {q : Sending} (h : x.Accounted (p :: l) a)
    (hsession : q.session = p.session) (hticket : q.ticket = p.ticket)
    (hholds : q.holds = p.holds) (hcounted : q.isCounted = p.isCounted)
    (hplace : q.place? = none) : x.Accounted (q :: l) a := by
  obtain ⟨hknown, hknown'⟩ := List.forall_mem_cons.mp h.known
  have hplaces : ∀ t, x.places (q :: l) t = x.places (p :: l) t := by
    intro t
    rw [places_cons, places_cons, hholds, hticket]
  obtain ⟨honce, hunmade⟩ := h.once_congr rfl hplaces
  refine ⟨?_, honce, hunmade, ?_, h.number, h.distinct, h.below, ?_, h.entered⟩
  · exact List.forall_mem_cons.mpr ⟨by rwa [hsession], hknown'⟩
  · intro i s hs
    rw [h.outstanding i s hs, due_cons, due_cons, hcounted, hsession]
  · refine List.forall_mem_cons.mpr ⟨?_, (List.forall_mem_cons.mp h.placed).2⟩
    intro key hkey
    rw [hplace] at hkey
    cases hkey

/-- The next number of a session makes a place that was not handed out before. -/
lemma Accounted.key_ne (h : x.Accounted l a) {s : Session} (hs : x.session? id = some s) :
    ∀ g ∈ a, g.2 ≠ { session := id, correlation := s.nextCorrelation } := by
  intro g hg hkey
  -- a number handed out before is below the next one of its session
  obtain ⟨-, s', hs', hlt⟩ := h.below g hg
  rw [hkey] at hs' hlt
  cases hs.symm.trans hs'
  exact Nat.lt_irrefl _ hlt

lemma Accounted.known_onSession (h : x.Accounted (p :: l) a) (stage : SendStage) (id : String)
    (f : Session → Session) :
    ∀ q ∈ { p with stage } :: l, ∃ s, (x.onSession id f).session? q.session = some s := by
  obtain ⟨hknown, hknown'⟩ := List.forall_mem_cons.mp h.known
  exact List.forall_mem_cons.mpr ⟨exists_session?_onSession f hknown,
    fun q hq => exists_session?_onSession f (hknown' q hq)⟩

/-- A session hands out a number that it has not handed out before, as long as it has one. -/
lemma Accounted.advance_checked (h : x.Accounted (p :: l) a) (hp : p.stage = .checked)
    {s : Session} (hs : x.session? p.session = some s)
    (hroom : s.nextCorrelation.toNat + 1 < 2 ^ 64) :
    (x.onSession p.session fun _ => s.takeCorrelation.2).Accounted
      ({ p with stage := .numbered s.nextCorrelation } :: l)
      (a ++ [(p.ticket, { session := p.session, correlation := s.nextCorrelation })]) := by
  have hholds : p.holds = true := by rw [Sending.holds, hp]
  have hcounted : p.isCounted = false := by rw [Sending.isCounted, hp]
  have hnext : (s.nextCorrelation + 1).toNat = s.nextCorrelation.toNat + 1 := by
    rw [UInt64.toNat_add]
    exact Nat.mod_eq_of_lt hroom
  have hplaces : ∀ t, x.places ({ p with stage := .numbered s.nextCorrelation } :: l) t =
      x.places (p :: l) t := by
    intro t
    rw [places_cons, places_cons, hholds]
    rfl
  have hdue : ∀ i, x.due ({ p with stage := .numbered s.nextCorrelation } :: l) i =
      x.due (p :: l) i := by
    intro i
    rw [due_cons, due_cons, hcounted]
    rfl
  obtain ⟨honce, hunmade⟩ := h.once_congr
    (y := x.onSession p.session fun _ => s.takeCorrelation.2) rfl hplaces
  refine ⟨h.known_onSession _ _ _, honce, hunmade, ?_, ?_, ?_, ?_, ?_, ?_⟩
  · intro i s' hs'
    refine Eq.trans ?_ (hdue i).symm
    rcases session?_onSession_cases hs' with ⟨rfl, _, -, rfl⟩ | ⟨-, hs'⟩
    · exact h.outstanding _ s hs
    · exact h.outstanding i s' hs'
  · intro i s' hs'
    rw [List.countP_append, List.countP_singleton]
    rcases session?_onSession_cases hs' with ⟨rfl, _, -, rfl⟩ | ⟨hi, hs'⟩
    · rw [if_pos (beq_self_eq_true _), Nat.add_right_comm, ← h.number _ s hs]
      exact hnext
    · rw [if_neg (by simpa using Ne.symm hi)]
      exact h.number i s' hs'
  · rw [List.map_append, List.nodup_append]
    refine ⟨h.distinct, List.nodup_singleton _, ?_⟩
    intro key hkey key' hkey'
    obtain ⟨g, hg, rfl⟩ := List.mem_map.mp hkey
    rw [List.mem_singleton.mp hkey']
    exact h.key_ne hs g hg
  · intro g hg
    rcases List.mem_append.mp hg with hg | hg
    · obtain ⟨hpos, s', hs', hlt⟩ := h.below g hg
      refine ⟨hpos, ?_⟩
      by_cases hi : g.2.session = p.session
      · rw [hi] at hs' ⊢
        cases hs.symm.trans hs'
        refine ⟨_, session?_onSession_self hs _, ?_⟩
        exact Nat.lt_of_lt_of_eq (Nat.lt_succ_of_lt hlt) hnext.symm
      · exact ⟨s', (session?_onSession_of_ne hi _).trans hs', hlt⟩
    · rw [List.mem_singleton.mp hg]
      refine ⟨?_, _, session?_onSession_self hs _, ?_⟩
      · rw [h.number _ s hs]
        exact Nat.succ_pos _
      · exact Nat.lt_of_lt_of_eq (Nat.lt_succ_self _) hnext.symm
  · refine List.forall_mem_cons.mpr ⟨?_, fun q hq key hkey => List.mem_append_left _
      ((List.forall_mem_cons.mp h.placed).2 q hq key hkey)⟩
    rintro key hkey
    cases hkey
    exact List.mem_append_right _ (List.mem_singleton_self _)
  · exact fun q hq => List.mem_append_left _ (h.entered q hq)

lemma Accounted.advance_numbered (h : x.Accounted (p :: l) a) {n : UInt64}
    (hp : p.stage = .numbered n) :
    (x.onSession p.session Session.countUp).Accounted ({ p with stage := .counted n } :: l) a := by
  have hholds : p.holds = true := by rw [Sending.holds, hp]
  have hcounted : p.isCounted = false := by rw [Sending.isCounted, hp]
  have hplace : p.place? = some { session := p.session, correlation := n } := by
    rw [Sending.place?, hp]
  have hplaces : ∀ t, x.places ({ p with stage := .counted n } :: l) t = x.places (p :: l) t := by
    intro t
    rw [places_cons, places_cons, hholds]
    rfl
  have hdue : ∀ i, x.due ({ p with stage := .counted n } :: l) i =
      x.due (p :: l) i + if p.session == i then 1 else 0 := by
    intro i
    rw [due_cons, due_cons, hcounted]
    rfl
  obtain ⟨hplaced, hplaced'⟩ := List.forall_mem_cons.mp h.placed
  obtain ⟨hnumber, hbelow⟩ :=
    h.numbers_onSession p.session (f := Session.countUp) fun s _ => rfl
  obtain ⟨honce, hunmade⟩ :=
    h.once_congr (y := x.onSession p.session Session.countUp) rfl hplaces
  refine ⟨h.known_onSession _ _ _, honce, hunmade, ?_, hnumber, h.distinct, hbelow, ?_, h.entered⟩
  · intro i s' hs'
    refine Eq.trans ?_ (hdue i).symm
    rcases session?_onSession_cases hs' with ⟨rfl, s, hs, rfl⟩ | ⟨hi, hs'⟩
    · rw [if_pos (beq_self_eq_true _), ← h.outstanding _ s hs]
      rfl
    · rw [if_neg (by simpa using Ne.symm hi)]
      exact h.outstanding i s' hs'
  · exact List.forall_mem_cons.mpr ⟨fun key hkey => hplaced key (hplace.trans hkey), hplaced'⟩

/-- A call that waits now has an entry, which puts out no other one. -/
lemma Accounted.advance_counted (h : x.Accounted (p :: l) a) {n : UInt64}
    (hp : p.stage = .counted n) (deadline : Duration) :
    ({ x with correlator := x.correlator.enter (p.entry deadline n) } : Calls).Accounted
      ({ p with stage := .entered n } :: l) a := by
  have hholds : p.holds = true := by rw [Sending.holds, hp]
  have hcounted : p.isCounted = true := by rw [Sending.isCounted, hp]
  have hplace : p.place? = some (p.entry deadline n).key := by rw [Sending.place?, hp]; rfl
  -- the place is free, so that nothing is put out
  have hpending : (x.correlator.enter (p.entry deadline n)).pending =
      x.correlator.pending ++ [p.entry deadline n] := by
    show List.filter _ _ ++ _ = _
    rw [List.filter_eq_self.mpr]
    exact fun q hq => bne_iff_ne.mpr (h.free hplace q hq)
  obtain ⟨hplaced, hplaced'⟩ := List.forall_mem_cons.mp h.placed
  have hplaces : ∀ t,
      ({ x with correlator := x.correlator.enter (p.entry deadline n) } : Calls).places
        ({ p with stage := .entered n } :: l) t = x.places (p :: l) t := by
    intro t
    rw [places_cons, places_cons, hholds, places, places, hpending, List.countP_append,
      List.countP_singleton, Bool.true_and]
    show _ + (_ + if p.ticket == t then 1 else 0) + List.countP _ x.reported + 0 = _
    omega
  have hdue : ∀ i,
      ({ x with correlator := x.correlator.enter (p.entry deadline n) } : Calls).due
        ({ p with stage := .entered n } :: l) i = x.due (p :: l) i := by
    intro i
    rw [due_cons, due_cons, hcounted, due, due, hpending, List.countP_append,
      List.countP_singleton, Bool.true_and]
    show _ + (if p.session == i then 1 else 0) + _ + 0 = _
    omega
  obtain ⟨honce, hunmade⟩ := h.once_congr
    (y := { x with correlator := x.correlator.enter (p.entry deadline n) }) rfl hplaces
  refine ⟨List.forall_mem_cons.mpr (List.forall_mem_cons.mp h.known), honce, hunmade, ?_,
    h.number, h.distinct, h.below, ?_, ?_⟩
  · exact fun i s hs => (h.outstanding i s hs).trans (hdue i).symm
  · refine List.forall_mem_cons.mpr ⟨?_, hplaced'⟩
    rintro key hkey
    cases hkey
  · intro q hq
    rw [hpending] at hq
    rcases List.mem_append.mp hq with hq | hq
    · exact h.entered q hq
    · rw [List.mem_singleton.mp hq]
      exact hplaced _ hplace

/-! ## Entries that are taken out -/

lemma Accounted.resolve (h : x.Accounted l a) (key : CallKey) (f : Pending → Outcome) :
    (x.resolve key f).2.Accounted l a := by
  rcases x.resolve_cases key f with ⟨hy, -⟩ | ⟨q, hq, rfl, hy⟩
  · rwa [hy]
  have hcount : ∀ g : Pending → Bool, x.correlator.pending.countP g =
      (x.correlator.erase q.key).pending.countP g + if g q then 1 else 0 := by
    intro g
    rw [(h.keyed.perm_erase hq).countP_eq, List.countP_cons]
  have hpending : (x.resolve q.key f).2.correlator.pending =
      (x.correlator.erase q.key).pending := by
    rw [hy]
    rfl
  have hreported : (x.resolve q.key f).2.reported = x.reported ++ [(q.ticket, f q)] := by
    rw [hy]
    rfl
  -- the call goes from the entries to the outcomes, and its session counts one less
  have hplaces : ∀ t, (x.resolve q.key f).2.places l t = x.places l t := by
    intro t
    rw [places, places, hpending, hreported, List.countP_append, List.countP_singleton, hcount]
    dsimp only
    omega
  have hdue : ∀ i,
      x.due l i = (x.resolve q.key f).2.due l i + if q.key.session == i then 1 else 0 := by
    intro i
    rw [due, due, hpending, hcount]
    omega
  have hsession : ∀ i, (x.resolve q.key f).2.session? i =
      (x.onSession q.key.session Session.countDown).session? i := by
    intro i
    rw [hy]
    rfl
  obtain ⟨hnumber, hbelow⟩ :=
    h.numbers_onSession q.key.session (f := Session.countDown) fun s _ => rfl
  simp only [← hsession] at hnumber hbelow
  obtain ⟨honce, hunmade⟩ := h.once_congr (x.made_resolve q.key f) hplaces
  refine ⟨?_, honce, hunmade, ?_, hnumber, h.distinct, hbelow, h.placed, ?_⟩
  · intro p hp
    rw [hsession]
    exact exists_session?_onSession _ (h.known p hp)
  · intro i s' hs'
    rw [hsession] at hs'
    have hi := hdue i
    rcases session?_onSession_cases hs' with ⟨rfl, s, hs, rfl⟩ | ⟨hne, hs⟩
    · rw [if_pos (beq_self_eq_true _), ← h.outstanding _ s hs] at hi
      show s.outstanding - 1 = _
      omega
    · rw [if_neg (by simpa using Ne.symm hne)] at hi
      rw [h.outstanding i s' hs, hi, Nat.add_zero]
  · intro r hr
    rw [hpending] at hr
    exact h.entered r (List.mem_of_mem_filter hr)

lemma Accounted.clearKeys (h : x.Accounted l a) {reason : ClearReason} {keys : List CallKey}
    {count : Nat} : (x.clearKeys reason keys count).2.Accounted l a :=
  clearKeys_induction (P := fun y => y.Accounted l a) (fun _ key _ hy => hy.resolve key _) h

/-! ## Sending, step by step -/

/-- The place that a step of sending gives to a call. -/
def gained (p q : Sending) : List (Nat × CallKey) :=
  match p.stage with
  | .checked => (q.place?.map (Prod.mk q.ticket)).toList
  | _ => []

/-- The session of a call has a number for it, if the call has none yet. -/
def HasNumber (x : Calls) (p : Sending) : Prop :=
  p.stage = .checked → ∀ s, x.session? p.session = some s → s.nextCorrelation.toNat + 1 < 2 ^ 64

/-- **A step of sending keeps the accounts.** -/
lemma Accounted.advance (h : x.Accounted (p :: l) a) (hroom : x.HasNumber p) (now : Duration) :
    (x.advance now p).1.Accounted ((x.advance now p).2 :: l)
      (a ++ gained p (x.advance now p).2) := by
  obtain ⟨s, hs⟩ := h.known p List.mem_cons_self
  rcases hp : p.stage with _ | n | n | n | n | ⟨n, e⟩ | _ | _
  · rw [Calls.advance_checked hp hs, gained, hp]
    exact h.advance_checked hp hs (hroom hp s hs)
  all_goals
    have hgained : ∀ q, gained p q = [] := fun q => by rw [gained, hp]
    rw [hgained, List.append_nil]
  case numbered =>
    rw [Calls.advance_numbered hp]
    exact h.advance_numbered hp
  case counted =>
    rcases hdeadline : p.terms.deadline? now with _ | deadline
    · rw [advance_counted_of_none hp hdeadline]
      have hholds : p.holds = true := by rw [Sending.holds, hp]
      have hcounted : p.isCounted = true := by rw [Sending.isCounted, hp]
      exact h.replace rfl rfl hholds.symm hcounted.symm rfl
    · rw [Calls.advance_counted hp hdeadline]
      exact h.advance_counted hp deadline
  case brokenOff =>
    rw [advance_brokenOff hp]
    exact h
  -- once it has been entered, a call is no longer with its task
  all_goals
    have hholds : p.holds = false := by rw [Sending.holds, hp]
    have hcounted : p.isCounted = false := by rw [Sending.isCounted, hp]
  · rcases hpass : s.letPass with e | _
    · rw [advance_entered_refused hp hs hpass]
      exact h.replace rfl rfl hholds.symm hcounted.symm rfl
    · rw [advance_entered hp hs hpass]
      exact h.replace rfl rfl hholds.symm hcounted.symm rfl
  · rcases hpush : s.push (p.frame n) with e | s'
    · rw [advance_admitted_refused hp hs hpush]
      exact h.replace rfl rfl hholds.symm hcounted.symm rfl
    · rw [advance_admitted hp hs hpush]
      refine (h.onSession fun t ht => ?_).replace rfl rfl hholds.symm hcounted.symm rfl
      cases hs.symm.trans ht
      obtain ⟨-, rfl⟩ := Session.push_eq_ok.mp hpush
      exact ⟨rfl, rfl⟩
  · rw [advance_refused hp]
    exact (h.resolve _ _).replace rfl rfl hholds.symm hcounted.symm rfl
  · rw [advance_returned hp]
    exact h

/-- How far sending has come. -/
def SendStage.rank : SendStage → Nat
  | .checked => 0
  | .numbered _ => 1
  | .counted _ => 2
  | .entered _ => 3
  | .admitted _ => 4
  | .refused _ _ => 5
  | .returned | .brokenOff => 6

lemma rank_advance (x : Calls) (now : Duration) (p : Sending) :
    min (p.stage.rank + 1) 6 ≤ (x.advance now p).2.stage.rank := by
  rcases hp : p.stage with _ | n | n | n | n | ⟨n, e⟩ | _ | _ <;> simp only [advance, hp]
  · split <;> simp [SendStage.rank]
  · simp [SendStage.rank]
  · split <;> simp [SendStage.rank]
  · split
    · simp [SendStage.rank]
    · split <;> simp [SendStage.rank]
  · split
    · simp [SendStage.rank]
    · split <;> simp [SendStage.rank]
  · simp [SendStage.rank]
  · simp [SendStage.rank]
  · simp [SendStage.rank]

lemma rank_advanceBy (now : Duration) (n : Nat) (x : Calls) (p : Sending) :
    min (p.stage.rank + n) 6 ≤ (advanceBy now n x p).2.stage.rank := by
  induction n generalizing x p with
  | zero => exact Nat.min_le_left _ _
  | succ n ih =>
    have hstep := x.rank_advance now p
    have hrest := ih (x.advance now p).1 (x.advance now p).2
    show _ ≤ (advanceBy now n (x.advance now p).1 (x.advance now p).2).2.stage.rank
    omega

lemma stage_advance_ne (x : Calls) (now : Duration) (p : Sending) :
    (x.advance now p).2.stage ≠ .checked := by
  intro hchecked
  have hrank := x.rank_advance now p
  rw [hchecked] at hrank
  simp only [SendStage.rank] at hrank
  omega

/-- All steps of sending a call together come to its end. -/
lemma stage_advanceBy (now : Duration) (x : Calls) (p : Sending) :
    (advanceBy now sendSteps x p).2.stage = .returned ∨
      (advanceBy now sendSteps x p).2.stage = .brokenOff := by
  have hrank := rank_advanceBy now sendSteps x p
  rw [sendSteps] at hrank
  rcases hq : (advanceBy now 6 x p).2.stage with _ | n | n | n | n | ⟨n, e⟩ | _ | _
  case returned => exact Or.inl hq
  case brokenOff => exact Or.inr hq
  all_goals
    rw [hq] at hrank
    simp only [SendStage.rank] at hrank
    omega

/-- After its number was given out, a call gets no other place. -/
lemma Accounted.advanceBy_of_ne (h : x.Accounted (p :: l) a) (hp : p.stage ≠ .checked)
    (now : Duration) (n : Nat) :
    (advanceBy now n x p).1.Accounted ((advanceBy now n x p).2 :: l) a := by
  induction n generalizing x p with
  | zero => exact h
  | succ n ih =>
    have hgained : gained p (x.advance now p).2 = [] := by
      rw [gained]
      split
      · next hchecked => exact absurd hchecked hp
      · rfl
    have hstep := h.advance (fun hchecked => absurd hchecked hp) now
    rw [hgained, List.append_nil] at hstep
    exact ih hstep (x.stage_advance_ne now p)

lemma Accounted.advanceBy_succ (h : x.Accounted (p :: l) a) (hroom : x.HasNumber p)
    (now : Duration) (n : Nat) :
    (advanceBy now (n + 1) x p).1.Accounted ((advanceBy now (n + 1) x p).2 :: l)
      (a ++ gained p (x.advance now p).2) :=
  (h.advance hroom now).advanceBy_of_ne (x.stage_advance_ne now p) now n

/-- A task that has returned has nothing to account for. -/
lemma Accounted.drop (h : x.Accounted (p :: l) a) (hp : p.stage = .returned) :
    x.Accounted l a := by
  have hholds : p.holds = false := by rw [Sending.holds, hp]
  have hcounted : p.isCounted = false := by rw [Sending.isCounted, hp]
  have hplaces : ∀ t, x.places l t = x.places (p :: l) t := by
    intro t
    rw [places_cons, hholds]
    rfl
  obtain ⟨honce, hunmade⟩ := h.once_congr rfl hplaces
  refine ⟨(List.forall_mem_cons.mp h.known).2, honce, hunmade, ?_, h.number, h.distinct, h.below,
    (List.forall_mem_cons.mp h.placed).2, h.entered⟩
  intro i s hs
  rw [h.outstanding i s hs, due_cons, hcounted]
  rfl

end Calls

end RemoteCall
