/-
# Walks through values and the objects that they lead to

A walk goes through values in order, into the parts of collections and into the fields of every
object that it meets for the first time; it keeps the list of the objects met.  `Walk` says that a
walk comes to its end, `Arrives` that it comes to a value at some depth.  The objects that a
completed walk has met are those that the values lead to, and each is met once.
-/
import Mathlib.Data.List.Basic
import RemoteCall.Proofs.Objects

namespace RemoteCall.Graph

/-- The walk through some values, when the objects `seen` have been met, comes to its end when
`seen'` have been met. -/
inductive Walk (g : Graph) : List Nat → List Value → List Nat → Prop
  | done {seen : List Nat} : Walk g seen [] seen
  | parts {v : Value} {rest : List Value} {seen seen' seen'' : List Nat} :
      (∀ id, v ≠ .object id) → Walk g seen v.parts seen' → Walk g seen' rest seen'' →
        Walk g seen (v :: rest) seen''
  | again {id : Nat} {rest : List Value} {seen seen' : List Nat} :
      id ∈ seen → Walk g seen rest seen' → Walk g seen (.object id :: rest) seen'
  | enter {id : Nat} {o : Node} {rest : List Value} {seen seen' seen'' : List Nat} :
      id ∉ seen → g.get? id = some o → Walk g (seen ++ [id]) (o.fields.map Prod.snd) seen' →
        Walk g seen' rest seen'' → Walk g seen (.object id :: rest) seen''

/-- The walk through some values, when the objects `seen` have been met, comes to a value `n` levels
down when `seen'` have been met. -/
inductive Arrives (g : Graph) : List Nat → List Value → Nat → List Nat → Value → Prop
  | here {v : Value} {rest : List Value} {seen : List Nat} : Arrives g seen (v :: rest) 0 seen v
  | later {v w : Value} {rest : List Value} {n : Nat} {seen seen' seen'' : List Nat} :
      Walk g seen [v] seen' → Arrives g seen' rest n seen'' w →
        Arrives g seen (v :: rest) n seen'' w
  | part {v w : Value} {rest : List Value} {n : Nat} {seen seen' : List Nat} :
      Arrives g seen v.parts n seen' w → Arrives g seen (v :: rest) (n + 1) seen' w
  | field {id : Nat} {o : Node} {w : Value} {rest : List Value} {n : Nat} {seen seen' : List Nat} :
      id ∉ seen → g.get? id = some o →
        Arrives g (seen ++ [id]) (o.fields.map Prod.snd) n seen' w →
        Arrives g seen (.object id :: rest) (n + 1) seen' w

variable {g : Graph} {seen seen' seen'' : List Nat} {vs ws : List Value}

/-! ## Walks one after the other -/

lemma Walk.append (h : g.Walk seen vs seen') (h' : g.Walk seen' ws seen'') :
    g.Walk seen (vs ++ ws) seen'' := by
  induction h with
  | done => exact h'
  | parts hv hparts _ _ ih => exact .parts hv hparts (ih h')
  | again hid _ ih => exact .again hid (ih h')
  | enter hid ho hfields _ _ ih => exact .enter hid ho hfields (ih h')

lemma Arrives.append {n : Nat} {w : Value} (h : g.Arrives seen vs n seen' w) (ws : List Value) :
    g.Arrives seen (vs ++ ws) n seen' w := by
  induction h with
  | here => exact .here
  | later hfirst _ ih => exact .later hfirst ih
  | part h _ => exact .part h
  | field hid ho h _ => exact .field hid ho h

/-- A walk takes its values one at a time. -/
lemma Walk.cons_cases {v : Value} (h : g.Walk seen (v :: vs) seen'') :
    ∃ seen', g.Walk seen [v] seen' ∧ g.Walk seen' vs seen'' := by
  cases h with
  | parts hv hparts hrest => exact ⟨_, .parts hv hparts .done, hrest⟩
  | again hid hrest => exact ⟨_, .again hid .done, hrest⟩
  | enter hid ho hfields hrest => exact ⟨_, .enter hid ho hfields .done, hrest⟩

lemma Arrives.after {n : Nat} {w : Value} (h : g.Walk seen vs seen')
    (h' : g.Arrives seen' ws n seen'' w) : g.Arrives seen (vs ++ ws) n seen'' w := by
  induction vs generalizing seen with
  | nil =>
    cases h
    exact h'
  | cons v rest ih =>
    obtain ⟨t, hfirst, hrest⟩ := h.cons_cases
    exact .later hfirst (ih hrest)

/-! ## What a walk meets -/

lemma Walk.grows (h : g.Walk seen vs seen') : seen <+: seen' := by
  induction h with
  | done => exact List.prefix_rfl
  | parts _ _ _ ih ih' => exact ih.trans ih'
  | again _ _ ih => exact ih
  | enter _ _ _ _ ih ih' => exact ((List.prefix_append _ _).trans ih).trans ih'

/-- Every object that one of the values mentions has been met. -/
lemma Walk.covers (h : g.Walk seen vs seen') :
    ∀ v ∈ vs, ∀ id, v.Mentions id → id ∈ seen' := by
  induction h with
  | done => simp
  | @parts v rest seen seen' seen'' hv _ hrest ih ih' =>
    intro w hw id hid
    rcases List.mem_cons.mp hw with rfl | hw
    · cases hid with
      | object => exact absurd rfl (hv id)
      | part hpart hmentions => exact hrest.grows.subset (ih _ hpart id hmentions)
    · exact ih' w hw id hid
  | @again i rest seen seen' hi hrest ih =>
    intro w hw id hid
    rcases List.mem_cons.mp hw with rfl | hw
    · rw [Value.mentions_object hid]
      exact hrest.grows.subset hi
    · exact ih w hw id hid
  | @enter i o rest seen seen' seen'' _ _ hfields hrest _ ih' =>
    intro w hw id hid
    rcases List.mem_cons.mp hw with rfl | hw
    · rw [Value.mentions_object hid]
      exact hrest.grows.subset (hfields.grows.subset (by simp))
    · exact ih' w hw id hid

/-- Every object that has been met on the walk is there, and the objects that its fields mention
have been met as well. -/
lemma Walk.closed (h : g.Walk seen vs seen') :
    ∀ id ∈ seen', id ∉ seen →
      ∃ o, g.get? id = some o ∧ ∀ e ∈ o.fields, ∀ i, e.2.Mentions i → i ∈ seen' := by
  induction h with
  | done => exact fun id hid hnew => absurd hid hnew
  | @parts v rest seen seen' seen'' _ _ hrest ih ih' =>
    intro id hid hnew
    -- met within the parts, or behind them; what was met is not forgotten
    by_cases hmid : id ∈ seen'
    · obtain ⟨o, ho, hmentions⟩ := ih id hmid hnew
      exact ⟨o, ho, fun e he i hi => hrest.grows.subset (hmentions e he i hi)⟩
    · exact ih' id hid hmid
  | again _ _ ih => exact ih
  | @enter i o rest seen seen' seen'' _ ho hfields hrest ih ih' =>
    intro id hid hnew
    by_cases hmid : id ∈ seen'
    · obtain ⟨p, hp, hmentions⟩ : ∃ p, g.get? id = some p ∧
          ∀ e ∈ p.fields, ∀ j, e.2.Mentions j → j ∈ seen' := by
        by_cases hi : id = i
        · subst hi
          exact ⟨o, ho, fun e he j hj => hfields.covers e.2 (List.mem_map_of_mem he) j hj⟩
        · exact ih id hmid (by simp [hnew, hi])
      exact ⟨p, hp, fun e he j hj => hrest.grows.subset (hmentions e he j hj)⟩
    · exact ih' id hid hmid

/-- One of the values leads to every object that has been met on the walk. -/
lemma Walk.reached (h : g.Walk seen vs seen') :
    ∀ id ∈ seen', id ∉ seen → ∃ v ∈ vs, g.Reaches id v := by
  induction h with
  | done => exact fun id hid hnew => absurd hid hnew
  | @parts v rest seen seen' seen'' _ _ _ ih ih' =>
    intro id hid hnew
    by_cases hmid : id ∈ seen'
    · obtain ⟨w, hw, hreach⟩ := ih id hmid hnew
      exact ⟨v, List.mem_cons_self, .part hw hreach⟩
    · obtain ⟨w, hw, hreach⟩ := ih' id hid hmid
      exact ⟨w, List.mem_cons_of_mem _ hw, hreach⟩
  | again _ _ ih =>
    intro id hid hnew
    obtain ⟨w, hw, hreach⟩ := ih id hid hnew
    exact ⟨w, List.mem_cons_of_mem _ hw, hreach⟩
  | @enter i o rest seen seen' seen'' _ ho _ _ ih ih' =>
    intro id hid hnew
    by_cases hmid : id ∈ seen'
    · refine ⟨.object i, List.mem_cons_self, ?_⟩
      by_cases hi : id = i
      · subst hi
        exact .object
      · -- met within the fields of the object
        obtain ⟨w, hw, hreach⟩ := ih id hmid (by simp [hnew, hi])
        obtain ⟨e, he, rfl⟩ := List.mem_map.mp hw
        exact .field ho he hreach
    · obtain ⟨w, hw, hreach⟩ := ih' id hid hmid
      exact ⟨w, List.mem_cons_of_mem _ hw, hreach⟩

lemma Walk.nodup (h : g.Walk seen vs seen') : seen.Nodup → seen'.Nodup := by
  induction h with
  | done => exact id
  | parts _ _ _ ih ih' => exact fun hnd => ih' (ih hnd)
  | again _ _ ih => exact ih
  | @enter i o rest seen seen' seen'' hi _ _ _ ih ih' =>
    intro hnd
    refine ih' (ih (List.nodup_append.mpr ⟨hnd, by simp, ?_⟩))
    intro a ha b hb hab
    rw [hab, List.mem_singleton.mp hb] at ha
    exact hi ha

/-- A walk from the start has met exactly the objects that the values lead to. -/
lemma Walk.mem_iff (h : g.Walk [] vs seen) (id : Nat) :
    id ∈ seen ↔ ∃ v ∈ vs, g.Reaches id v := by
  constructor
  · intro hid
    exact h.reached id hid List.not_mem_nil
  · rintro ⟨v, hv, hreach⟩
    -- the objects met are closed under fields, as the walk began with none
    refine hreach.mem_of_closed (S := fun i => i ∈ seen) (h.covers v hv) ?_
    intro i hi o ho e he j hj
    obtain ⟨o', ho', hmentions⟩ := h.closed i hi List.not_mem_nil
    obtain rfl : o = o' := Option.some.inj (ho.symm.trans ho')
    exact hmentions e he j hj

lemma bijOn_idxOf {seen : List Nat} (h : seen.Nodup) :
    Set.BijOn (fun id => seen.idxOf id) {id | id ∈ seen} {n | n < seen.length} := by
  refine ⟨fun id hid => List.idxOf_lt_length_of_mem hid, ?_, ?_⟩
  · intro i hi j hj hij
    exact (List.idxOf_inj hi).mp hij
  · intro n hn
    exact ⟨seen[n], List.getElem_mem hn, h.idxOf_getElem n hn⟩

/-- The objects that a walk has met, in the order in which it met them, are a copy of what the
values lead to. -/
lemma Walk.isCopy (h : g.Walk [] vs seen) :
    g.IsCopy (fun id => seen.idxOf id) vs (empty.adopt g (fun id => seen.idxOf id) seen) where
  bijOn := by
    have hsize : (empty.adopt g (fun id => seen.idxOf id) seen).size = seen.length := by
      rw [size_adopt]
      exact Nat.zero_add _
    simp only [← h.mem_iff, hsize]
    exact bijOn_idxOf (h.nodup List.nodup_nil)
  get? id hreach := by
    have hid := (h.mem_iff id).mpr hreach
    obtain ⟨o, ho, -⟩ := h.closed id hid List.not_mem_nil
    exact ⟨o, ho, get?_empty_adopt g _ (List.getElem?_idxOf hid) ho⟩

end RemoteCall.Graph
