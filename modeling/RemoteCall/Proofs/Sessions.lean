/-
# The sessions of one end, by name

Changing the session of one name leaves all others to be found as they were.
-/
import RemoteCall.Proofs.Named
import RemoteCall.Session.Store

namespace RemoteCall.Sessions

lemma get?_modify (l : Sessions) (id i : String) (f : Session → Session) :
    Named.get? (l.modify id f) i =
      if i = id then (Named.get? l i).map f else Named.get? l i := by
  induction l with
  | nil => simp [modify, Named.get?]
  | cons e rest ih =>
    obtain ⟨n, s⟩ := e
    by_cases hn : n = i
    · subst hn
      by_cases hid : n = id <;> simp [modify, Named.get?, hid]
    · by_cases hid : n = id
      · subst hid
        simpa [modify, Named.get?, hn] using ih
      · simpa [modify, Named.get?, hn, hid] using ih

variable {l : Sessions} {id : String} {s : Session}

/-- A change is what it makes of the one session that it is about. -/
lemma modify_eq_of_get? (hl : Named.names l |>.Nodup) (hs : Named.get? l id = some s)
    (f : Session → Session) : l.modify id f = l.modify id fun _ => f s := by
  apply List.map_congr_left
  rintro ⟨n, t⟩ ht
  by_cases hn : n = id
  · subst hn
    rw [(Named.get?_eq_some_iff hl).mpr ht] at hs
    cases hs
    rfl
  · simp only [hn, if_false]

lemma modify_self (hl : Named.names l |>.Nodup) (hs : Named.get? l id = some s) :
    (l.modify id fun _ => s) = l := by
  rw [← modify_eq_of_get? hl hs fun t => t]
  simp [modify]

end RemoteCall.Sessions
