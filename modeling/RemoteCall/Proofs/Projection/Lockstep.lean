/-
# Projection over a graph that a newer sender has extended

A newer sender may give objects fields that the reader's declarations do not have, and these fields
may lead to objects that the reader has never heard of.  Projection over the extended graph goes in
lockstep with projection over the original one: it meets the same objects in the same order and
fits them to the same fields, because it never looks into a field that is not declared.
-/
import Mathlib.Data.List.Perm.Subperm
import RemoteCall.Proofs.Named
import RemoteCall.Proofs.Projection.Coupling

namespace RemoteCall

/-! ## Extended graphs -/

/-- All objects that a value mentions are among the first `n`. -/
def Value.Within (n : Nat) (v : Value) : Prop := ∀ id, v.Mentions id → id < n

/-- A reference leads to an object of the graph, and no object has two fields of one name. -/
structure Graph.WellFormed (g : Graph) : Prop where
  closed : ∀ id o, g.get? id = some o → ∀ e ∈ o.fields, e.2.Within g.size
  distinct : ∀ id o, g.get? id = some o → o.fields.names.Nodup

/-- A type is declared, without a field of a given name. -/
def Registry.Lacks (r : Registry) (typeName name : String) : Prop :=
  ∃ s, r.type? typeName = some s ∧ ∀ d ∈ s.fields, d.name ≠ name

/-- An object is another one with further fields, which the declaration of its type lacks. -/
structure Node.Extends (r : Registry) (o o' : Node) : Prop where
  typeName : o'.typeName = o.typeName
  fields : Named.Inserted (r.Lacks o.typeName) o.fields o'.fields
  distinct : o'.fields.names.Nodup

/-- A graph is another one with further fields in its objects and further objects behind them. -/
def Graph.Extends (r : Registry) (g g' : Graph) : Prop :=
  ∀ id o, g.get? id = some o → ∃ o', g'.get? id = some o' ∧ o.Extends r o'

lemma Graph.lt_size_of_get? {g : Graph} {id : Nat} {o : Node} (h : g.get? id = some o) :
    id < g.size :=
  (Array.getElem?_eq_some_iff.mp h).1

lemma Graph.exists_get?_of_lt {g : Graph} {id : Nat} (h : id < g.size) :
    ∃ o, g.get? id = some o :=
  ⟨g.nodes[id], Array.getElem?_eq_getElem h⟩

lemma Value.within_object {n id : Nat} (h : id < n) : (Value.object id).Within n :=
  fun _ hi => Value.mentions_object hi ▸ h

lemma Value.within_scalar {n : Nat} {v : Value} (hparts : v.parts = [])
    (hobject : ∀ id, v ≠ .object id) : v.Within n := by
  intro id hid
  cases hid with
  | object => exact absurd rfl (hobject id)
  | part hw _ => exact absurd (hparts ▸ hw) List.not_mem_nil

namespace Projection

variable {registry : Registry} {options : DecodeOptions} {n b : Nat} {underway : List Nat}
  {p p' q q' : Progress} {id : Nat}

/-! ## Two runs in lockstep -/

/-- Two projections have met the same objects, all of them among the first `n`: what one has not met
the other finds extended, and what both have met is the same, unless it is under way. -/
structure Alike (registry : Registry) (n : Nat) (underway : List Nat) (p p' : Progress) : Prop where
  visited : p'.visited = p.visited
  nodup : p.visited.Nodup
  below : ∀ id ∈ p.visited, id < n
  size : n ≤ p.graph.size ∧ n ≤ p'.graph.size
  fresh : ∀ id < n, id ∉ p.visited → ∃ o o', p.graph.get? id = some o ∧
    p'.graph.get? id = some o' ∧ o.Extends registry o' ∧ ∀ e ∈ o.fields, e.2.Within n
  done : ∀ id ∈ p.visited, id ∉ underway → p'.graph.get? id = p.graph.get? id

/-- An object that has not been met leaves room among those that have been. -/
lemma Alike.length_lt (h : Alike registry n underway p p') (hid : id < n) (hnew : id ∉ p.visited) :
    p.visited.length < n := by
  have hnodup : (id :: p.visited).Nodup := List.nodup_cons.mpr ⟨hnew, h.nodup⟩
  have hsubset : id :: p.visited ⊆ List.range n := by
    intro i hi
    rcases List.mem_cons.mp hi with rfl | hi
    · exact List.mem_range.mpr hid
    · exact List.mem_range.mpr (h.below i hi)
  have hle := (List.subperm_of_subset hnodup hsubset).length_le
  rw [List.length_range] at hle
  exact hle

/-- Two runs that began with the objects `met` have failed in the same way, or have given the same
and are alike. -/
def Agree {α : Type} (registry : Registry) (n : Nat) (underway met : List Nat)
    (x x' : Except Misfit (α × Progress)) : Prop :=
  (∃ e, x = .error e ∧ x' = .error e) ∨
    ∃ a q q', x = .ok (a, q) ∧ x' = .ok (a, q') ∧ Alike registry n underway q q' ∧
      met <:+ q.visited

/-- Two steps keep runs alike in which at least `b` objects have been met. -/
def Lockstep {α : Type} (registry : Registry) (n b : Nat) (m m' : Step α) : Prop :=
  ∀ underway p p', Alike registry n underway p p' → b ≤ p.visited.length →
    Agree registry n underway p.visited (m.run p) (m'.run p')

section Lockstep

variable {α β : Type} {m m' : Step α} {k k' : α → Step β}

/-- Runs are in lockstep when they are coupled, whatever is under way and whatever has been met. -/
lemma lockstep_iff :
    Lockstep registry n b m m' ↔ ∀ underway met, b ≤ met.length →
      Coupled (fun p p' => Alike registry n underway p p' ∧ met <:+ p.visited) Eq m m' := by
  constructor
  · rintro h underway met hb p p' ⟨halike, hmet⟩
    refine (h underway p p' halike (Nat.le_trans hb hmet.length_le)).imp_right ?_
    rintro ⟨a, q, q', hq, hq', halike', hsuffix⟩
    exact ⟨a, a, q, q', hq, hq', rfl, halike', hmet.trans hsuffix⟩
  · intro h underway p p' halike hb
    refine (h underway p.visited hb p p' ⟨halike, List.suffix_refl _⟩).imp_right ?_
    rintro ⟨a, _, q, q', hq, hq', rfl, halike', hsuffix⟩
    exact ⟨a, q, q', hq, hq', halike', hsuffix⟩

lemma lockstep_pure (a : α) : Lockstep registry n b (pure a) (pure a) :=
  lockstep_iff.mpr fun _ _ _ => coupled_pure rfl

lemma Lockstep.bind (hm : Lockstep registry n b m m')
    (hk : ∀ a, Lockstep registry n b (k a) (k' a)) :
    Lockstep registry n b (m >>= k) (m' >>= k') :=
  lockstep_iff.mpr fun underway met hb =>
    (lockstep_iff.mp hm underway met hb).bind_eq fun a => lockstep_iff.mp (hk a) underway met hb

lemma Lockstep.map (hm : Lockstep registry n b m m') (f : α → β) :
    Lockstep registry n b (m >>= fun a => pure (f a)) (m' >>= fun a => pure (f a)) :=
  hm.bind fun a => lockstep_pure (f a)

lemma lockstep_congruence : Congruence (Lockstep registry n b) where
  pure := lockstep_pure
  throw e := lockstep_iff.mpr fun _ _ _ => coupled_throw e
  bind := Lockstep.bind

end Lockstep

/-! ## Values -/

lemma lockstep_value {object object' : Nat → Option String → Step Unit} {path : String} {v : Value}
    (h : ∀ id, v.Mentions id → ∀ declared,
      Lockstep registry n b (object id declared) (object' id declared)) (tag : TypeTag) :
    Lockstep registry n b (value registry options object path tag v)
      (value registry options object' path tag v) :=
  lockstep_congruence.value (fun _ _ => lockstep_congruence.lift _) h tag

/-! ## Fields -/

/-- Two lists have the same entries under the declared names, and no name twice. -/
structure Shares (n : Nat) (ds : List FieldDecl) (sent sent' : Named Value) : Prop where
  distinct : sent.names.Nodup
  distinct' : sent'.names.Nodup
  same : ∀ d ∈ ds, sent'.get? d.name = sent.get? d.name
  within : ∀ e ∈ sent, e.2.Within n

/-- Both lists give the same for a declared place, and share what is declared after it. -/
lemma Shares.swapOut {d : FieldDecl} {ds : List FieldDecl} {sent sent' : Named Value}
    (h : Shares n (d :: ds) sent sent') :
    ∃ found left left', (sent.swapOut? d.name).getD (.null, sent) = (found, left) ∧
      (sent'.swapOut? d.name).getD (.null, sent') = (found, left') ∧ found.Within n ∧
      Shares n ds left left' := by
  have hsame := h.same d List.mem_cons_self
  rcases hs : sent.swapOut? d.name with _ | ⟨found, left⟩
  · have hs' : sent'.swapOut? d.name = none := by
      rw [Named.swapOut?_eq_none_iff, hsame, ← Named.swapOut?_eq_none_iff, hs]
    have hnull : Value.null.Within n := Value.within_scalar rfl fun id => by simp
    exact ⟨.null, sent, sent', rfl, by rw [hs']; rfl, hnull, h.distinct, h.distinct',
      fun d' hd' => h.same d' (List.mem_cons_of_mem _ hd'), h.within⟩
  · have hfound : sent.get? d.name = some found := by
      rw [← Named.swapOut?_fst, hs]
      rfl
    have hfst : (sent'.swapOut? d.name).map Prod.fst = some found := by
      rw [Named.swapOut?_fst, hsame, hfound]
    obtain ⟨⟨found', left'⟩, hs', rfl⟩ := Option.map_eq_some_iff.mp hfst
    obtain ⟨hleft, hget⟩ := Named.get?_of_swapOut? h.distinct hs
    obtain ⟨hleft', hget'⟩ := Named.get?_of_swapOut? h.distinct' hs'
    have hmem : ∀ e ∈ left, e ∈ sent := fun e he =>
      (Named.perm_of_swapOut? hs).mem_iff.mpr (List.mem_cons_of_mem _ he)
    refine ⟨found', left, left', rfl, by rw [hs']; rfl, h.within _ (Named.mem_of_get? hfound),
      hleft, hleft', fun d' hd' => ?_, fun e he => h.within e (hmem e he)⟩
    rw [hget, hget', h.same d' (List.mem_cons_of_mem _ hd')]

lemma lockstep_fill {fit fit' : FieldDecl → Value → Step Value} {missing : FieldDecl → Misfit}
    (hfit : ∀ d v, v.Within n → Lockstep registry n b (fit d v) (fit' d v))
    {ds : List FieldDecl} {sent sent' : Named Value} (h : Shares n ds sent sent') :
    Lockstep registry n b (fill fit missing ds sent) (fill fit' missing ds sent') := by
  induction ds generalizing sent sent' with
  | nil => exact lockstep_pure []
  | cons d ds ih =>
    obtain ⟨found, left, left', hs, hs', hfound, hleft⟩ := h.swapOut
    simp only [fill, hs, hs']
    exact (lockstep_congruence.place (hfit d found hfound)).bind fun v => (ih hleft).map _

/-! ## Objects -/

/-- Fields that are fitted in lockstep when they mention only the first `n` objects. -/
def FitsAlike (registry : Registry) (n b : Nat) (fit fit' : String → TypeTag → Value → Step Value) :
    Prop :=
  ∀ path tag v, v.Within n → Lockstep registry n b (fit path tag v) (fit' path tag v)

variable {fit fit' : String → TypeTag → Value → Step Value} {o o' : Node}
  {declared : Option String}

/-- The declaration that an object is fitted to lacks none of the names that it declares. -/
lemma not_lacks_of_schemaFor? {typeName : String} {s : TypeSchema}
    (hs : schemaFor? registry typeName declared = some s) {d : FieldDecl} (hd : d ∈ s.fields) :
    ¬ registry.Lacks typeName d.name := by
  rintro ⟨t, ht, hlacks⟩
  rw [schemaFor?, ht] at hs
  cases hs
  exact hlacks d hd rfl

lemma not_lacks_of_schemaFor?_none {typeName : String}
    (hs : schemaFor? registry typeName declared = none) (name : String) :
    ¬ registry.Lacks typeName name := by
  rintro ⟨t, ht, -⟩
  rw [schemaFor?, ht] at hs
  cases hs

lemma lockstep_node (hfit : FitsAlike registry n b fit fit') (ho : o.Extends registry o')
    (hwithin : ∀ e ∈ o.fields, e.2.Within n) :
    Lockstep registry n b (node fit o (schemaFor? registry o.typeName declared))
      (node fit' o' (schemaFor? registry o'.typeName declared)) := by
  rw [ho.typeName]
  rcases hs : schemaFor? registry o.typeName declared with _ | schema
  · have heq : o'.fields = o.fields := ho.fields.eq (not_lacks_of_schemaFor?_none hs)
    have hnode : o' = o := by
      rw [show o' = ⟨o'.typeName, o'.fields⟩ from rfl, ho.typeName, heq]
    rw [hnode]
    exact (lockstep_congruence.keep fun e he => hfit e.1 .any e.2 (hwithin e he)).map _
  · have hshares : Shares n schema.fields o.fields o'.fields :=
      ⟨(ho.fields.sublist.map _).nodup ho.distinct, ho.distinct,
        fun d hd => ho.fields.get?_eq (not_lacks_of_schemaFor? hs hd), hwithin⟩
    exact (lockstep_fill (fun d v hv => hfit _ d.tag v hv) hshares).map _

lemma run_object_of_mem (hid : id ∈ p.visited) (unmet : Nat) :
    (object registry options unmet id declared).run p = .ok ((), p) := by
  cases unmet <;> unfold object <;> exact run_meet_of_mem hid

/-- An object that is met is under way in both runs. -/
lemma Alike.mark (h : Alike registry n underway p p') (hid : id < n) (hnew : id ∉ p.visited) :
    Alike registry n (id :: underway) { p with visited := id :: p.visited }
      { p' with visited := id :: p'.visited } where
  visited := by rw [h.visited]
  nodup := List.nodup_cons.mpr ⟨hnew, h.nodup⟩
  below := List.forall_mem_cons.mpr ⟨hid, h.below⟩
  size := h.size
  fresh := fun i hi hout => h.fresh i hi (List.not_mem_of_not_mem_cons hout)
  done := fun i hi hout => by
    have hi := (List.mem_cons.mp hi).resolve_left (List.ne_of_not_mem_cons hout)
    exact h.done i hi (List.not_mem_of_not_mem_cons hout)

/-- An object that has been fitted to the same fields in both runs is under way no longer. -/
lemma Alike.put (h : Alike registry n (id :: underway) p p') (hid : id ∈ p.visited) (o : Node) :
    Alike registry n underway { p with graph := p.graph.modify id fun _ => o }
      { p' with graph := p'.graph.modify id fun _ => o } where
  visited := h.visited
  nodup := h.nodup
  below := h.below
  size := by
    rw [Graph.size_modify, Graph.size_modify]
    exact h.size
  fresh := fun i hi hout => by
    have hne : i ≠ id := fun heq => hout (heq ▸ hid)
    rw [Graph.get?_modify_of_ne _ hne, Graph.get?_modify_of_ne _ hne]
    exact h.fresh i hi hout
  done := fun i hi hout => by
    by_cases hii : i = id
    · obtain ⟨x, hx⟩ := Graph.exists_get?_of_lt (Nat.lt_of_lt_of_le (h.below id hid) h.size.1)
      obtain ⟨x', hx'⟩ := Graph.exists_get?_of_lt (Nat.lt_of_lt_of_le (h.below id hid) h.size.2)
      rw [hii, Graph.get?_modify_self, Graph.get?_modify_self, hx, hx']
      rfl
    · rw [Graph.get?_modify_of_ne _ hii, Graph.get?_modify_of_ne _ hii]
      exact h.done i hi (List.not_mem_cons_of_ne_of_not_mem hii hout)

/-- The first reference that leads to an object has it fitted in lockstep, if its fields are, once
one more object has been met. -/
lemma lockstep_rewrite (hfit : FitsAlike registry n (b + 1) fit fit')
    (h : Alike registry n underway p p') (hb : b ≤ p.visited.length) (hid : id < n)
    (hnew : id ∉ p.visited) :
    Agree registry n underway p.visited ((meet (rewrite registry fit) id declared).run p)
      ((meet (rewrite registry fit') id declared).run p') := by
  obtain ⟨o, o', ho, ho', hext, hwithin⟩ := h.fresh id hid hnew
  have hnew' : id ∉ p'.visited := by rwa [h.visited]
  rw [run_meet_of_not_mem hnew, run_meet_of_not_mem hnew',
    run_rewrite (p := { p with visited := id :: p.visited }) ho,
    run_rewrite (p := { p' with visited := id :: p'.visited }) ho']
  rcases lockstep_node hfit hext hwithin _ _ _ (h.mark hid hnew) (Nat.succ_le_succ hb) with
    ⟨e, he, he'⟩ | ⟨a, q, q', hq, hq', halike, hsuffix⟩
  · exact Or.inl ⟨e, run_bind_eq_error.mpr (Or.inl he), run_bind_eq_error.mpr (Or.inl he')⟩
  · have hvisited : id ∈ q.visited := hsuffix.subset List.mem_cons_self
    exact Or.inr ⟨(), _, _, run_bind_eq_ok.mpr ⟨a, q, hq, rfl⟩,
      run_bind_eq_ok.mpr ⟨a, q', hq', rfl⟩, halike.put hvisited a,
      (List.suffix_cons _ _).trans hsuffix⟩

/-- **An object is fitted in lockstep**, whatever the sizes of the two graphs, as long as each run
counts on as many objects as have not been met. -/
lemma lockstep_object {k k' : Nat} (hk : n ≤ b + k) (hk' : n ≤ b + k') (hid : id < n)
    (declared : Option String) :
    Lockstep registry n b (object registry options k id declared)
      (object registry options k' id declared) := by
  induction k using Nat.strongRecOn generalizing k' b id declared with
  | _ k ih =>
  intro underway p p' h hb
  by_cases hmem : id ∈ p.visited
  · have hmem' : id ∈ p'.visited := by rwa [h.visited]
    exact Or.inr ⟨(), p, p', run_object_of_mem hmem k, run_object_of_mem hmem' k', h,
      List.suffix_refl _⟩
  · -- there is room for one more object, so neither run has come to its end
    have hlt := h.length_lt hid hmem
    obtain ⟨j, rfl⟩ : ∃ j, k = j + 1 := ⟨k - 1, by omega⟩
    obtain ⟨j', rfl⟩ : ∃ j, k' = j + 1 := ⟨k' - 1, by omega⟩
    have hfit : FitsAlike registry n (b + 1) (value registry options (object registry options j))
        (value registry options (object registry options j')) := by
      intro path tag v hv
      exact lockstep_value (fun i hi => ih j (by omega) (by omega) (by omega) (hv i hi)) tag
    unfold object
    exact lockstep_rewrite hfit h hb hid hmem

end Projection

end RemoteCall
