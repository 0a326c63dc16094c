/-
# How deep a walk comes

A walk enters an object where it meets it first.  How deep it comes below that object depends on the
object's own fields, and on how deep the object was met; so a walk that comes to a value comes there
from the object that it has entered last.  A walk that comes to its end enters every object that the
values lead to, and comes to everything that is nested in the fields of each.
-/
import RemoteCall.Proofs.Walk

namespace RemoteCall

/-- A value is nested in some of the values, `n` levels down. -/
inductive Value.Nests (w : Value) : Nat → List Value → Prop
  | here {vs : List Value} : w ∈ vs → Nests w 0 vs
  | part {v : Value} {vs : List Value} {n : Nat} :
      v ∈ vs → Nests w n v.parts → Nests w (n + 1) vs

lemma Value.Nests.mono {w : Value} {n : Nat} {vs ws : List Value} (h : w.Nests n vs)
    (hsub : vs ⊆ ws) : w.Nests n ws := by
  cases h with
  | here hw => exact .here (hsub hw)
  | part hv hparts => exact .part (hsub hv) hparts

lemma Value.Nests.mentions {id n : Nat} {vs : List Value} (h : (object id).Nests n vs) :
    ∃ v ∈ vs, v.Mentions id := by
  induction h with
  | here hid => exact ⟨_, hid, .object⟩
  | part hv _ ih =>
    obtain ⟨w, hw, hmentions⟩ := ih
    exact ⟨_, hv, .part hw hmentions⟩

/-- The values of the fields of an object. -/
def Node.values (o : Node) : List Value := o.fields.map Prod.snd

namespace Graph

/-- The walk through some values meets an object for the first time `n` levels down. -/
def Meets (g : Graph) (vs : List Value) (n id : Nat) : Prop :=
  ∃ seen, g.Arrives [] vs n seen (.object id) ∧ id ∉ seen

/-- The walk through some values comes to an object that it has met before. -/
def MeetsAgain (g : Graph) (vs : List Value) : Prop :=
  ∃ n seen id, g.Arrives [] vs n seen (.object id) ∧ id ∈ seen

variable {g : Graph} {seen seen' seen'' : List Nat} {vs ws : List Value}

/-! ## Walks are determined by where they begin -/

lemma Walk.unique (h : g.Walk seen vs seen') (h' : g.Walk seen vs seen'') : seen' = seen'' := by
  induction h generalizing seen'' with
  | done =>
    cases h'
    rfl
  | parts hv _ _ ih ih' =>
    cases h' with
    | parts _ hparts hrest =>
      obtain rfl := ih hparts
      exact ih' hrest
    | again => exact absurd rfl (hv _)
    | enter => exact absurd rfl (hv _)
  | again hid _ ih =>
    cases h' with
    | parts hv => exact absurd rfl (hv _)
    | again _ hrest => exact ih hrest
    | enter hnew => exact absurd hid hnew
  | enter hnew ho _ _ ih ih' =>
    cases h' with
    | parts hv => exact absurd rfl (hv _)
    | again hid => exact absurd hid hnew
    | enter _ ho' hfields hrest =>
      rw [ho] at ho'
      cases ho'
      obtain rfl := ih hfields
      exact ih' hrest

lemma Walk.append_cases (h : g.Walk seen (vs ++ ws) seen'') :
    ∃ seen', g.Walk seen vs seen' ∧ g.Walk seen' ws seen'' := by
  induction vs generalizing seen with
  | nil => exact ⟨seen, .done, h⟩
  | cons v vs ih =>
    obtain ⟨t, hfirst, hrest⟩ := h.cons_cases
    obtain ⟨t', hvs, hws⟩ := ih hrest
    exact ⟨t', hfirst.append hvs, hws⟩

/-! ## Where a walk comes from -/

/-- What a walk comes to is nested in the values, or in the fields of an object that the walk has
entered on the way. -/
lemma Arrives.origin {n : Nat} {w : Value} (h : g.Arrives seen vs n seen' w) :
    w.Nests n vs ∨ ∃ m k t id o, n = m + 1 + k ∧ g.Arrives seen vs m t (.object id) ∧ id ∉ t ∧
      g.get? id = some o ∧ w.Nests k o.values := by
  induction h with
  | here => exact Or.inl (.here List.mem_cons_self)
  | later hfirst _ ih =>
    rcases ih with hnests | ⟨m, k, t, id, o, rfl, harrives, hnew, ho, hnests⟩
    · exact Or.inl (hnests.mono (List.subset_cons_self _ _))
    · exact Or.inr ⟨m, k, t, id, o, rfl, .later hfirst harrives, hnew, ho, hnests⟩
  | part _ ih =>
    rcases ih with hnests | ⟨m, k, t, id, o, rfl, harrives, hnew, ho, hnests⟩
    · exact Or.inl (.part List.mem_cons_self hnests)
    · exact Or.inr ⟨m + 1, k, t, id, o, by omega, .part harrives, hnew, ho, hnests⟩
  | @field i o w rest n seen seen' hi hget _ ih =>
    rcases ih with hnests | ⟨m, k, t, id, o', rfl, harrives, hnew, ho, hnests⟩
    · exact Or.inr ⟨0, n, seen, i, o, by omega, .here, hi, hget, hnests⟩
    · exact Or.inr ⟨m + 1, k, t, id, o', by omega, .field hi hget harrives, hnew, ho, hnests⟩

/-- A walk goes on from an object that it meets for the first time into its fields. -/
lemma Arrives.enter {m n id : Nat} {o : Node} {w : Value}
    (h : g.Arrives seen vs m seen' (.object id)) (hnew : id ∉ seen') (ho : g.get? id = some o)
    (h' : g.Arrives (seen' ++ [id]) o.values n seen'' w) :
    g.Arrives seen vs (m + 1 + n) seen'' w := by
  generalize hw : Value.object id = v at h
  induction h with
  | here =>
    subst hw
    rw [Nat.zero_add, Nat.add_comm]
    exact .field hnew ho h'
  | later hfirst _ ih => exact .later hfirst (ih hnew h' hw)
  | part _ ih =>
    rw [Nat.add_right_comm _ 1 1, Nat.add_right_comm _ 1 n]
    exact .part (ih hnew h' hw)
  | field hi hget _ ih =>
    rw [Nat.add_right_comm _ 1 1, Nat.add_right_comm _ 1 n]
    exact .field hi hget (ih hnew h' hw)

/-! ## Walks that come to their end -/

/-- A walk that comes to its end has gone through what is nested in its values. -/
lemma Walk.arrives (h : g.Walk seen vs seen') {n : Nat} {w : Value} (hw : w.Nests n vs) :
    ∃ t, g.Arrives seen vs n t w := by
  induction hw generalizing seen seen' with
  | here hw =>
    obtain ⟨front, back, rfl⟩ := List.append_of_mem hw
    obtain ⟨t, hfront, -⟩ := h.append_cases
    exact ⟨t, .after hfront .here⟩
  | @part v vs n hv hparts ih =>
    obtain ⟨front, back, rfl⟩ := List.append_of_mem hv
    obtain ⟨t, hfront, hback⟩ := h.append_cases
    have hfull : v.parts ≠ [] := by
      intro hnil
      rw [hnil] at hparts
      cases hparts with
      | here hw => cases hw
      | part hw => cases hw
    cases hback with
    | parts _ hwalk _ =>
      obtain ⟨t', harrives⟩ := ih hwalk
      exact ⟨t', .after hfront (.part harrives)⟩
    | again => exact absurd rfl hfull
    | enter => exact absurd rfl hfull

/-- A walk that comes to its end goes through the fields of every object that it meets. -/
lemma Walk.of_arrives (h : g.Walk seen vs seen') {n id : Nat} {t : List Nat}
    (harrives : g.Arrives seen vs n t (.object id)) (hnew : id ∉ t) :
    ∃ o t', g.get? id = some o ∧ g.Walk (t ++ [id]) o.values t' := by
  generalize hw : Value.object id = w at harrives
  induction harrives generalizing seen' with
  | here =>
    subst hw
    cases h with
    | parts hv => exact absurd rfl (hv id)
    | again hid => exact absurd hid hnew
    | enter _ ho hfields _ => exact ⟨_, _, ho, hfields⟩
  | later hfirst _ ih =>
    obtain ⟨t', hfirst', hrest⟩ := h.cons_cases
    obtain rfl := hfirst.unique hfirst'
    exact ih hrest hnew hw
  | part hpart ih =>
    cases h with
    | parts _ hparts _ => exact ih hparts hnew hw
    | again => cases hpart
    | enter => cases hpart
  | field hi hget _ ih =>
    cases h with
    | parts hv => exact absurd rfl (hv _)
    | again hid => exact absurd hid hi
    | enter _ ho hfields _ =>
      rw [hget] at ho
      cases ho
      exact ih hfields hnew hw

/-- A walk comes to every object that it meets, when it has not met it yet. -/
lemma Walk.comes_to (h : g.Walk seen vs seen') {id : Nat} (hid : id ∈ seen') (hnew : id ∉ seen) :
    ∃ n t, g.Arrives seen vs n t (.object id) ∧ id ∉ t := by
  induction h with
  | done => exact absurd hid hnew
  | @parts v rest seen seen' seen'' hv hparts _ ih ih' =>
    by_cases hmid : id ∈ seen'
    · obtain ⟨n, t, harrives, ht⟩ := ih hmid hnew
      exact ⟨n + 1, t, .part harrives, ht⟩
    · obtain ⟨n, t, harrives, ht⟩ := ih' hid hmid
      exact ⟨n, t, .later (.parts hv hparts .done) harrives, ht⟩
  | again hi _ ih =>
    obtain ⟨n, t, harrives, ht⟩ := ih hid hnew
    exact ⟨n, t, .later (.again hi .done) harrives, ht⟩
  | @enter i o rest seen seen' seen'' hi ho hfields _ ih ih' =>
    by_cases hmid : id ∈ seen'
    · by_cases hii : id = i
      · subst hii
        exact ⟨0, seen, .here, hi⟩
      · obtain ⟨n, t, harrives, ht⟩ := ih hmid (by simp [hnew, hii])
        exact ⟨n + 1, t, .field hi ho harrives, ht⟩
    · obtain ⟨n, t, harrives, ht⟩ := ih' hid hmid
      exact ⟨n, t, .later (.enter hi ho hfields .done) harrives, ht⟩

lemma Walk.meets (h : g.Walk [] vs seen) {id : Nat} (hid : id ∈ seen) : ∃ n, g.Meets vs n id := by
  obtain ⟨n, t, harrives, ht⟩ := h.comes_to hid List.not_mem_nil
  exact ⟨n, t, harrives, ht⟩

/-- What is nested in the fields of an object that a walk meets, the walk comes to. -/
lemma Meets.arrives (hwalk : g.Walk [] vs seen) {m id : Nat} (h : g.Meets vs m id) {o : Node}
    (ho : g.get? id = some o) {n : Nat} {w : Value} (hw : w.Nests n o.values) :
    ∃ t, g.Arrives [] vs (m + 1 + n) t w := by
  obtain ⟨t, harrives, hnew⟩ := h
  obtain ⟨o', t', ho', hfields⟩ := hwalk.of_arrives harrives hnew
  rw [ho] at ho'
  cases ho'
  obtain ⟨t'', hdown⟩ := hfields.arrives hw
  exact ⟨t'', harrives.enter hnew ho hdown⟩

end Graph

end RemoteCall
