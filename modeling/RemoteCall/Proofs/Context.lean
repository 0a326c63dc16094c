/-
# Contexts come back from the wire

Which parts of a context are sent depends on the version, and nothing marks where the context ends
and the arguments begin.  `Context.asSent` says what is left of a context at a version; the reader
takes exactly the bytes that the writer gives at the same version, and gives what is left.
-/
import RemoteCall.Context
import RemoteCall.Proofs.Wire.Reading

namespace RemoteCall

/-! ## Points in time -/

namespace Timestamp

/-- The point in time at which its millisecond began. -/
def floored (t : Timestamp) : Timestamp where
  nanos := t.millis * 1000000
  inCalendar := by
    rw [Int.mul_ediv_cancel _ (by decide)]
    exact t.inCalendar

lemma ofMillis?_millis_eq (t : Timestamp) : ofMillis? t.millis = some t.floored :=
  ofNanos?_eq_some t.floored.inCalendar

/-- A number of milliseconds within the calendar fits into a signed word. -/
lemma toInt_ofInt_millis (t : Timestamp) : (Int64.ofInt t.millis).toInt = t.millis := by
  obtain ⟨hlow, hhigh⟩ := t.inCalendar
  refine Int64.toInt_ofInt_of_le ?_ ?_ <;> simp only [millis] <;> omega

end Timestamp

/-! ## Attributes -/

/-- An entry whose name is behind all others is put at the end. -/
lemma Named.insertOrdered_eq_append {α : Type} {l : Named α} {name : String} {a : α}
    (h : ∀ e ∈ l, e.1 < name) : l.insertOrdered name a = l ++ [(name, a)] := by
  induction l with
  | nil => rfl
  | cons e rest ih =>
    obtain ⟨n, b⟩ := e
    have hn : n < name := h (n, b) List.mem_cons_self
    have hne : name ≠ n := by
      rintro rfl
      exact String.lt_irrefl name hn
    rw [insertOrdered, if_neg hne, if_neg (String.lt_asymm hn),
      ih fun e he => h e (List.mem_cons_of_mem _ he), List.cons_append]

namespace Attributes

/-- Entries in the order of their names, put in one after the other, end up one after the other. -/
lemma entries_foldl_insert (l : Named String) (a : Attributes)
    (h : Named.Increasing (a.entries ++ l)) :
    (l.foldl (fun a e => a.insert e.1 e.2) a).entries = a.entries ++ l := by
  induction l generalizing a with
  | nil => exact (List.append_nil _).symm
  | cons e rest ih =>
    have hlast : ∀ e' ∈ a.entries, e'.1 < e.1 :=
      fun e' he' => (List.pairwise_append.mp h).2.2 e' he' e List.mem_cons_self
    have hinsert : (a.insert e.1 e.2).entries = a.entries ++ [e] :=
      Named.insertOrdered_eq_append hlast
    rw [List.foldl_cons, ih (a.insert e.1 e.2), hinsert, List.append_assoc, List.singleton_append]
    rw [hinsert, List.append_assoc, List.singleton_append]
    exact h

lemma eq_of_entries {a b : Attributes} (h : a.entries = b.entries) : a = b := by
  cases a
  cases b
  cases h
  rfl

lemma ofList_entries (a : Attributes) : ofList a.entries = a :=
  eq_of_entries (entries_foldl_insert a.entries {} a.increasing)

end Attributes

/-! ## What is sent at a version -/

/-- A location as it arrives at a version. -/
def Location.asSent (v : ProtocolVersion) (l : Location) : Location :=
  { l with inferredCountry := if v.number < 2 then none else l.inferredCountry }

namespace Context

open Wire Wire.Reader

/-- A context as it arrives at a version: its time is that of the millisecond, and a part that the
version does not know yet is absent. -/
def asSent (v : ProtocolVersion) (c : Context) : Context :=
  { c with
    location := c.location.map (Location.asSent v)
    received := c.received.floored
    request :=
      { c.request with
        root := if v.number < 3 then none else c.request.root
        parent := if v.number < 3 then none else c.request.parent }
    additional := if v.number < 4 then .ofList [] else c.additional }

variable {v : ProtocolVersion}

/-- An element that is not sent is absent, and nothing is taken for it. -/
lemma recovers_since {α : Type} {introduced : ProtocolVersion} {absent a : α} {element : Reader α}
    {bytes : List UInt8} (h : Recovers element bytes a) :
    Recovers (since introduced v absent element) (if v.supports introduced then bytes else [])
      (if v.number < introduced.number then absent else a) := by
  by_cases hv : v.number < introduced.number
  · have hnot : v.supports introduced = false := by
      simpa [ProtocolVersion.supports] using hv
    rw [since, hnot, if_pos hv]
    exact fun _ => takes_pure absent
  · have hsupports : v.supports introduced = true := by
      simpa [ProtocolVersion.supports] using hv
    rw [since, hsupports, if_neg hv]
    exact h

/-! ## The parts of a context -/

lemma recovers_pair (p : String × String) : Recovers readPair (putPair p) p :=
  (recovers_text p.1).bind ((recovers_text p.2).map fun second => (p.1, second))

lemma length_putPair_pos (p : String × String) : 0 < (putPair p).length := by
  have h := length_putText_pos p.1
  rw [putPair, List.length_append]
  omega

lemma recovers_token (t : IdentityToken) :
    Recovers readToken (putPair (t.name, t.value)) t :=
  (recovers_pair (t.name, t.value)).map fun p => IdentityToken.mk p.1 p.2

lemma recovers_location (l : Location) :
    Recovers (readLocation v) (putLocation v l) (l.asSent v) := by
  have hresolved := recovers_counted length_putText_pos recovers_text l.resolved
  have hcountry := recovers_optional_self recovers_text l.country
  have hinferred : Recovers (since .inferredCountry v none (optional text))
      (if v.supports .inferredCountry then putOptional putText l.inferredCountry else [])
      (if v.number < 2 then none else l.inferredCountry) :=
    recovers_since (recovers_optional_self recovers_text l.inferredCountry)
  rw [putLocation, List.append_assoc, List.append_assoc]
  exact (recovers_text l.remoteAddress).bind (hresolved.bind (hcountry.bind (hinferred.map
    (Location.mk l.remoteAddress l.resolved l.country))))

lemma recovers_timestamp (t : Timestamp) :
    Recovers readTimestamp (Varint.encodeSigned (Int64.ofInt t.millis)) t.floored := by
  intro _
  refine (takes_number _).bind_nil ?_
  simp only [Varint.unfold_fold, t.toInt_ofInt_millis, t.ofMillis?_millis_eq]
  exact takes_pure t.floored

lemma recovers_uuid (u : Uuid) : Recovers readUuid u.bytes u := by
  intro _
  have htake := takes_take u.bytes
  rw [Uuid.bytes, length_bigEndian] at htake
  have h := htake.map Uuid.ofBytes
  rwa [← Uuid.bytes, Uuid.ofBytes_bytes] at h

/-! ## Whole contexts -/

/-- **Contexts come back.**  At every version, the reader takes what the writer gives and finds the
context as it arrives at that version. -/
lemma recovers_context (v : ProtocolVersion) (c : Context) :
    Recovers (read v) (c.encode v) (c.asSent v) := by
  have hidentity : Recovers (counted readToken)
      (putCounted (fun t => putPair (t.name, t.value)) c.identity) c.identity :=
    recovers_counted (fun t => length_putPair_pos _) recovers_token c.identity
  have hlocation := recovers_optional (recovers_location (v := v)) c.location
  have hchain : ∀ u : Option Uuid, Recovers (since .requestChain v none (optional readUuid))
      (if v.supports .requestChain then putOptional Uuid.bytes u else [])
      (if v.number < 3 then none else u) :=
    fun u => recovers_since (recovers_optional_self recovers_uuid u)
  have hadditional : Recovers (since .additionalContext v [] (counted readPair))
      (if v.supports .additionalContext then putCounted putPair c.additional.entries else [])
      (if v.number < 4 then [] else c.additional.entries) :=
    recovers_since (recovers_counted length_putPair_pos recovers_pair c.additional.entries)
  -- root and parent share a condition when they are written, but not when they are read
  have hsplit : ∀ a b : List UInt8, (if v.supports .requestChain then a ++ b else []) =
      (if v.supports .requestChain then a else []) ++
        if v.supports .requestChain then b else [] := by
    intro a b
    split <;> rfl
  have hattributes : Attributes.ofList (if v.number < 4 then [] else c.additional.entries) =
      if v.number < 4 then .ofList [] else c.additional := by
    split
    · rfl
    · exact c.additional.ofList_entries
  rw [encode, hsplit, List.append_assoc, asSent, ← hattributes]
  exact hidentity.bind (hlocation.bind ((recovers_timestamp c.received).bind
    (Recovers.bind (fun _ => takes_flag c.traced) ((recovers_uuid c.request.own).bind
      ((hchain c.request.root).bind ((hchain c.request.parent).bind (hadditional.map _)))))))

end Context

end RemoteCall
