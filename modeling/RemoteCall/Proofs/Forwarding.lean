/-
# What was received can be sent on

The reader and the writer allow the same number of levels, so what was read could be written back.
Fitting is in between.  It can move an object further down: when the place where the object was sent
out in full is dropped, or comes later than it did, the object is met first at one of the places
that referred back to it.  And it gives an object the declared fields that were not sent, which are
one level below the object.  Nothing else can make what was received too deep to be sent.
-/
import RemoteCall.Message
import RemoteCall.Proofs.Projection.Drawn
import RemoteCall.Proofs.Wire.Levels

namespace RemoteCall

open Wire Projection

/-- Values are nested more deeply than they were sent: there were references back to objects, and an
object is met further down than it was sent; or an object that was sent without fields on the last
level has got fields. -/
def Graph.Deepened (g : Graph) (vs : List Value) (h : Graph) (ws : List Value) : Prop :=
  (g.MeetsAgain vs ∧ ∃ id m n, m < n ∧ g.Meets vs m id ∧ h.Meets ws n id) ∨
    ∃ id o o', g.Meets vs maxDepth id ∧ g.get? id = some o ∧ o.fields = [] ∧
      h.get? id = some o' ∧ o'.fields ≠ []

/-- Values over a graph have been drawn from others: each of them, and each field of every object,
is null or the image of what was sent there. -/
structure Projection.Redrawn (registry : Registry) (options : DecodeOptions) (g : Graph)
    (vs : List Value) (h : Graph) (ws : List Value) : Prop where
  size : h.size = g.size
  roots : Drawn registry options vs ws
  fields : ∀ id o', h.get? id = some o' →
    ∃ o, g.get? id = some o ∧ Drawn registry options o.values o'.values

namespace Projection.Redrawn

variable {registry : Registry} {options : DecodeOptions} {g h : Graph} {vs ws : List Value}

/-- Every object that the walk comes to was sent; and if there were no references back, it was sent
on that level. -/
lemma object_sent (hfit : Redrawn registry options g vs h ws) {seen : List Nat}
    (hwalk : g.Walk [] vs seen) {n id : Nat} {t : List Nat}
    (harrives : h.Arrives [] ws n t (.object id)) :
    id ∈ seen ∧ (g.MeetsAgain vs ∨ g.Meets vs n id) := by
  have hmeets {n id : Nat} {t : List Nat} (h : g.Arrives [] vs n t (.object id)) :
      g.MeetsAgain vs ∨ g.Meets vs n id := by
    by_cases hid : id ∈ t
    · exact Or.inl ⟨n, t, id, h, hid⟩
    · exact Or.inr ⟨t, h, hid⟩
  -- on the level, since the object that leads here was met further up
  induction n using Nat.strongRecOn generalizing id t with
  | ind n ih =>
  rcases harrives.origin with hroot | ⟨m, k, t', i, o', rfl, hi, -, ho', hfield⟩
  · have hsent := hfit.roots.nests_object hroot
    obtain ⟨v, hv, hmentions⟩ := hsent.mentions
    obtain ⟨u, hu⟩ := hwalk.arrives hsent
    exact ⟨hwalk.covers v hv id hmentions, hmeets hu⟩
  · obtain ⟨o, ho, hdrawn⟩ := hfit.fields i o' ho'
    have hsent := hdrawn.nests_object hfield
    obtain ⟨hseen, hmet⟩ := ih m (by omega) hi
    constructor
    · obtain ⟨x, hx, hclosed⟩ := hwalk.closed i hseen List.not_mem_nil
      rw [ho] at hx
      cases hx
      obtain ⟨v, hv, hmentions⟩ := hsent.mentions
      obtain ⟨e, he, rfl⟩ := List.mem_map.mp hv
      exact hclosed e he id hmentions
    · refine hmet.elim Or.inl fun hmet => ?_
      obtain ⟨u, hu⟩ := hmet.arrives hwalk ho hsent
      exact hmeets hu

/-- A walk that comes too deep does so because values are nested more deeply than they were
sent. -/
lemma deepened (hfit : Redrawn registry options g vs h ws) (hsent : AsRead g vs) {t : List Nat}
    {w : Value} (harrives : h.Arrives [] ws (maxDepth + 1) t w) : g.Deepened vs h ws := by
  have hwalk := hsent.walk
  rcases harrives.origin with hroot | ⟨m, k, t', i, o', hlevel, hi, hnew, ho', hfield⟩
  · rcases hfit.roots.nests hroot with ⟨hzero, -⟩ | ⟨v, tag, hv, -⟩
    · cases hzero
    · obtain ⟨u, hu⟩ := hwalk.arrives hv
      have hshallow := hsent.shallow _ _ _ hu
      omega
  obtain ⟨o, ho, hdrawn⟩ := hfit.fields i o' ho'
  obtain ⟨hseen, hmet⟩ := hfit.object_sent hwalk hi
  obtain ⟨m', hm'⟩ := hwalk.meets hseen
  -- the object that leads here is met further down, or was sent on this level or below
  have hcases : (g.MeetsAgain vs ∧ m' < m) ∨ ∃ m', m ≤ m' ∧ g.Meets vs m' i := by
    by_cases hlt : m' < m
    · exact hmet.imp (fun hagain => ⟨hagain, hlt⟩) fun h => ⟨m, Nat.le_refl m, h⟩
    · exact Or.inr ⟨m', Nat.le_of_not_lt hlt, hm'⟩
  rcases hcases with ⟨hagain, hlt⟩ | ⟨m', hle, hmeets⟩
  · exact Or.inl ⟨hagain, i, m', m, hlt, hm', t', hi, hnew⟩
  -- what was nested in its fields was sent as deep as that
  have hnone : ∀ {v : Value}, ¬ v.Nests k o.values := by
    intro v hv
    obtain ⟨u, hu⟩ := hmeets.arrives hwalk ho hv
    have hshallow := hsent.shallow _ _ _ hu
    omega
  rcases hdrawn.nests hfield with ⟨rfl, rfl⟩ | ⟨v, tag, hv, -⟩
  · right
    have hlast : m' = maxDepth := by
      obtain ⟨u, hu, -⟩ := hmeets
      have hshallow := hsent.shallow _ _ _ hu
      omega
    refine ⟨i, o, o', hlast ▸ hmeets, ho, ?_, ho', ?_⟩
    · by_contra hfields
      obtain ⟨e, he⟩ := List.exists_mem_of_ne_nil o.fields hfields
      exact hnone (.here (List.mem_map_of_mem he))
    · rintro hfields
      rw [Node.values, hfields] at hfield
      cases hfield with
      | here hw => cases hw
  · exact absurd hv hnone

lemma too_deep (hfit : Redrawn registry options g vs h ws) (hsent : AsRead g vs)
    {cause : Unwritable} (hblocked : Blocked h (maxDepth + 1) ws [] cause) :
    cause = .tooDeep ∧ g.Deepened vs h ws := by
  rcases hblocked with ⟨rfl, t, w, harrives⟩ | ⟨n, t, id, -, -, harrives, hnone⟩
  · exact ⟨rfl, hfit.deepened hsent harrives⟩
  · -- fitting takes no object out of the graph
    have hwalk := hsent.walk
    obtain ⟨hseen, -⟩ := hfit.object_sent hwalk harrives
    obtain ⟨o, ho, -⟩ := hwalk.closed id hseen List.not_mem_nil
    obtain ⟨o', ho'⟩ := Graph.exists_get?_of_size_eq hfit.size ho
    rw [hnone] at ho'
    cases ho'

/-- Values that were drawn from what was read are written, or they are nested too deeply. -/
lemma run_or_too_deep (hfit : Redrawn registry options g vs h ws) (hsent : AsRead g vs)
    {w : Wire.Writer} (hw : Writer.Visits h (maxDepth + 1) ws w) :
    (∃ bytes, w.run = .ok bytes) ∨ w.run = .error .tooDeep ∧ g.Deepened vs h ws := by
  rcases hrun : w.run with cause | bytes
  · rcases bind_eq_error.mp hrun with herror | ⟨p, -, hput⟩
    · obtain ⟨rfl, hdeepened⟩ := hfit.too_deep hsent ((hw []).2 cause herror)
      exact Or.inr ⟨rfl, hdeepened⟩
    · cases hput
  · exact Or.inl ⟨bytes, rfl⟩

end Projection.Redrawn

/-! ## What was decoded -/

section Decoded

variable {registry : Registry} {options : DecodeOptions}

lemma Returned.redrawn_of_project {g : Graph} {v : Value} {tag : TypeTag} {path : String}
    {r : Returned} (h : project registry options g v tag path = .ok r) :
    Redrawn registry options g [v] r.graph [r.value] := by
  obtain ⟨q, -, hgraph, hrewrites, hvalue, -⟩ := exists_run_of_project h
  refine ⟨hgraph ▸ hrewrites.size, ?_, fun id o' ho' => hrewrites.drawn (hgraph ▸ ho')⟩
  rintro w hw
  rw [List.mem_singleton.mp hw]
  exact Or.inr ⟨v, List.mem_singleton_self v, tag, hvalue⟩

lemma Arguments.redrawn_of_bind {params : List FieldDecl} {sent a : Arguments}
    (h : Projection.bind registry options params sent = .ok a) :
    Redrawn registry options sent.graph (sent.values.map Prod.snd) a.graph
      (a.values.map Prod.snd) := by
  obtain ⟨q, -, hgraph, hrewrites, hvalues, -⟩ := exists_run_of_bind h
  refine ⟨hgraph ▸ hrewrites.size, ?_, fun id o' ho' => hrewrites.drawn (hgraph ▸ ho')⟩
  rw [hvalues]
  exact drawn_filled params sent.values

/-- **What was decoded can be sent on, unless it is nested more deeply than it was sent**: a result
that was decoded can be encoded, and so can bound arguments, in a request to any operation, with any
context and at any version.  Otherwise the nesting is what is refused, and either an object is met
further down than it was sent, which takes a reference back in what was sent, or an object on the
last level has got its first fields. -/
theorem sent_on_unless_deepened (registry : Registry) (options : DecodeOptions) :
    (∀ returns payload r, Returned.decode registry options returns payload = .ok r →
      ∃ sent, Returned.read.run payload = .ok sent ∧
        ((∃ bytes, r.encode = .ok bytes) ∨ r.encode = .error Unwritable.tooDeep.toFailure ∧
          sent.graph.Deepened [sent.value] r.graph [r.value])) ∧
    ∀ v payload request params a, Request.decode v payload = .ok request →
      request.bind registry options params = .ok a →
      ∀ v' key context, (∃ bytes, Request.encode v' ⟨key, context, a⟩ = .ok bytes) ∨
        Request.encode v' ⟨key, context, a⟩ = .error Unwritable.tooDeep.toFailure ∧
          request.arguments.graph.Deepened (request.arguments.values.map Prod.snd) a.graph
            (a.values.map Prod.snd) := by
  constructor
  · intro returns payload r hdecode
    rw [Returned.decode] at hdecode
    split at hdecode
    · cases hdecode
    rename_i sent hread
    split at hdecode <;> cases hdecode
    rename_i hproject
    refine ⟨sent, hread, ?_⟩
    have hvisits := Writer.visits_value r.graph (maxDepth + 1) r.value
    rcases (Returned.redrawn_of_project hproject).run_or_too_deep (Returned.asRead_of_read hread)
      hvisits with ⟨bytes, hrun⟩ | ⟨hrun, hdeepened⟩
    · exact Or.inl ⟨bytes, by rw [Returned.encode, Writer.outermost, hrun]⟩
    · exact Or.inr ⟨by rw [Returned.encode, Writer.outermost, hrun], hdeepened⟩
  · intro v payload request params a hdecode hbind v' key context
    rw [Request.bind] at hbind
    split at hbind <;> cases hbind
    rename_i hbind
    have hvisits := Writer.visits_fields (Writer.visits_value a.graph (maxDepth + 1)) a.values
    rcases (Arguments.redrawn_of_bind hbind).run_or_too_deep (Request.asRead_of_decode hdecode)
      hvisits with ⟨bytes, hrun⟩ | ⟨hrun, hdeepened⟩
    · have hput : Request.putArguments a = .ok bytes := hrun
      exact Or.inl ⟨_, by rw [Request.encode, hput]⟩
    · have hput : Request.putArguments a = .error .tooDeep := hrun
      exact Or.inr ⟨by rw [Request.encode, hput], hdeepened⟩

end Decoded

/-! ## An object on the last level -/

namespace LastLevel

/-- A type with one field, which may be left out. -/
def registry : Registry := { types := [⟨"N", [⟨"n", .any, false⟩]⟩] }

/-- An object of the type, in as many lists as there are levels above the last one. -/
def tag : TypeTag := Nat.repeat TypeTag.list maxDepth (.object "N")

/-- Such an object, sent without the field. -/
def payload : List UInt8 := (List.replicate maxDepth [0x08, 1]).flatten ++ [0x0B, 1, 78, 0]

/-- What the payload is decoded to. -/
def fitted : Returned where
  graph := ⟨#[⟨"N", [("n", .null)]⟩]⟩
  value := Nat.repeat (fun v => .list [v]) maxDepth (.object 0)

set_option maxRecDepth 100000 in
lemma decode_payload : Returned.decode registry {} (some tag) payload = .ok fitted := by
  cbv

set_option maxRecDepth 100000 in
lemma encode_fitted : fitted.encode = .error Unwritable.tooDeep.toFailure := by
  cbv

end LastLevel

/-- The object on the last level gets its field, and is refused; two arguments that share an object
are bound, and may be sent on. -/
theorem sent_on_unless_deepened_on_last_level :
    let params : List FieldDecl := [⟨"x", .any, true⟩, ⟨"y", .list (.object "N"), false⟩]
    let payload : List UInt8 := Request.putKey ⟨"S", "1", "o"⟩ ++ (Context.encode ⟨1⟩ {} ++
      [2, 1, 121, 8, 1, 11, 1, 78, 0, 1, 120, 12, 0])
    let sent : Arguments := ⟨⟨#[⟨"N", []⟩]⟩, [("y", .list [.object 0]), ("x", .object 0)]⟩
    let bound : Arguments :=
      ⟨⟨#[⟨"N", [("n", .null)]⟩]⟩, [("x", .object 0), ("y", .list [.object 0])]⟩
    Returned.decode LastLevel.registry {} (some LastLevel.tag) LastLevel.payload =
        .ok LastLevel.fitted ∧
      LastLevel.fitted.encode = .error Unwritable.tooDeep.toFailure ∧
      (∃ sent, Returned.read.run LastLevel.payload = .ok sent ∧
        sent.graph.Deepened [sent.value] LastLevel.fitted.graph [LastLevel.fitted.value]) ∧
      Request.decode ⟨1⟩ payload = .ok ⟨⟨"S", "1", "o"⟩, {}, sent⟩ ∧
      (Request.mk ⟨"S", "1", "o"⟩ {} sent).bind LastLevel.registry {} params = .ok bound ∧
      ∀ v key context, (∃ bytes, Request.encode v ⟨key, context, bound⟩ = .ok bytes) ∨
        Request.encode v ⟨key, context, bound⟩ = .error Unwritable.tooDeep.toFailure ∧
          sent.graph.Deepened [.list [.object 0], .object 0] bound.graph
            [.object 0, .list [.object 0]] := by
  intro params payload sent bound
  obtain ⟨hreturned, hrequest⟩ := sent_on_unless_deepened LastLevel.registry {}
  have hdecode : Request.decode ⟨1⟩ payload = .ok ⟨⟨"S", "1", "o"⟩, {}, sent⟩ := by
    subst payload sent
    cbv
  have hbind : (Request.mk ⟨"S", "1", "o"⟩ {} sent).bind LastLevel.registry {} params =
      .ok bound := by
    subst params sent bound
    cbv
  refine ⟨LastLevel.decode_payload, LastLevel.encode_fitted, ?_, hdecode, hbind,
    hrequest ⟨1⟩ payload _ params bound hdecode hbind⟩
  obtain ⟨sent, hread, hencoded⟩ := hreturned _ _ _ LastLevel.decode_payload
  refine ⟨sent, hread, ?_⟩
  rcases hencoded with ⟨bytes, hbytes⟩ | ⟨-, hdeepened⟩
  · rw [LastLevel.encode_fitted] at hbytes
    cases hbytes
  · exact hdeepened

/-- So not everything that was decoded can be sent on. -/
theorem not_sent_on_from_last_level :
    ¬ ((∀ registry options returns payload r,
        Returned.decode registry options returns payload = .ok r → ∃ bytes, r.encode = .ok bytes) ∧
      ∀ registry options v payload request params a, Request.decode v payload = .ok request →
        request.bind registry options params = .ok a →
        ∀ v' key context, ∃ bytes, Request.encode v' ⟨key, context, a⟩ = .ok bytes) := by
  rintro ⟨hreturned, -⟩
  obtain ⟨bytes, hbytes⟩ := hreturned _ _ _ _ _ LastLevel.decode_payload
  rw [LastLevel.encode_fitted] at hbytes
  cases hbytes

end RemoteCall
