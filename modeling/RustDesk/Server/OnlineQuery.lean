import RustDesk.Common.Checked
import RustDesk.Server.OnlineStates

/-!
# A query for online peers, end to end

References: `src/client.rs` (`peer_online`: `create_online_stream`, `query_online_states_`), `src/common.rs`
(`get_next_nonkeyexchange_msg`) and `rustdesk-server/src/rendezvous_server.rs` (`peers_online_state`).

hbbs looks up the ids one after the other, each at a time of its own. The client asks the server one port below the
rendezvous server, which it takes for a host, a colon and a port, and goes over the bits of the answer by the number of
ids it asked for, not by the number of bytes it got.
-/

namespace RustDesk.Server

open Bitmap

/-- `peers_online_state`, with what it finds at the turn of each id. -/
def peersOnlineStateSeen (seen : ℕ → Registry × ℕ) (peers : List String) : List UInt8 :=
  setAll (zeroed ((peers.length + 7) / 8)) 0 (peers.mapIdx fun i id => (seen i).1.answersOnline (seen i).2 id)

/-- A message that a read of the online stream finds. -/
inductive OnlineMsg
  | keyExchange
  | onlineResponse (states : List UInt8)
  | other
deriving DecidableEq

inductive OnlineQueryError
  | receivesNone
  | noOnlineResponse
deriving DecidableEq

/-- What a query meets: the address of the rendezvous server, whether a connection comes about and takes the request,
and what the reads find, if they find a message. -/
structure OnlineEnv where
  rendezvousServer : List Char
  connects : List Char → Bool
  sends : Bool
  reads : List (Option OnlineMsg)

/-- `parse::<u16>` -/
def parseU16 (text : List Char) : Option ℕ :=
  let digits (text : List Char) : Option ℕ :=
    if text ≠ [] ∧ text.all Char.isDigit then some (Nat.ofDigitChars 10 text 0) else none
  let number :=
    match text with
    | '+' :: text => digits text
    | text => digits text
  number.filter (· < 2 ^ 16)

/-- `create_online_stream`, as whether there is one. -/
def createOnlineStream (env : OnlineEnv) : Bool :=
  match env.rendezvousServer.splitOn ':' with
  | [host, port] =>
    match parseU16 port with
    | none | some 0 => false
    | some (port + 1) => env.connects (host ++ ':' :: Nat.toDigits 10 port)
  | _ => false

/-- The message, and the reads that are left. -/
def getNextNonkeyexchangeMsg : ℕ → List (Option OnlineMsg) → Option OnlineMsg × List (Option OnlineMsg)
  | 0, reads => (none, reads)
  | tries + 1, some .keyExchange :: reads => getNextNonkeyexchangeMsg tries reads
  | _ + 1, some msg :: reads => (some msg, reads)
  | _ + 1, none :: reads => (none, reads)
  | _ + 1, [] => (none, [])

/-- The states of the first `OnlineResponse` of so many messages. -/
def receiveStates : ℕ → List (Option OnlineMsg) → Except OnlineQueryError (List UInt8)
  | 0, _ => .error .noOnlineResponse
  | tries + 1, reads =>
    match getNextNonkeyexchangeMsg 2 reads with
    | (some (.onlineResponse states), _) => .ok states
    | (some _, reads) => receiveStates tries reads
    | (none, _) => .error .receivesNone

/-- The loop over the ids, from the one with the number `i` on. -/
def splitStates (states : List UInt8) :
    ℕ → List String → List String → List String → MayPanic (List String × List String)
  | _, onlines, offlines, [] => .ok (onlines, offlines)
  | i, onlines, offlines, id :: ids =>
    (MayPanic.index states (i / 8)).bind fun byte =>
      if byte &&& mask i == mask i then splitStates states (i + 1) (onlines ++ [id]) offlines ids
      else splitStates states (i + 1) onlines (offlines ++ [id]) ids

def queryOnlineStates (env : OnlineEnv) (ids : List String) :
    MayPanic (Except OnlineQueryError (List String × List String)) :=
  if createOnlineStream env then
    if env.sends then
      match receiveStates 2 env.reads with
      | .ok states => (splitStates states 0 [] [] ids).bind fun lists => .ok (.ok lists)
      | .error err => .ok (.error err)
    else .ok (.ok ([], ids))
  else .ok (.ok ([], ids))

/-- The ids at the numbers that satisfy a condition. -/
def idsAt (p : ℕ → Bool) (ids : List String) : List String := (ids.zipIdx.filter fun x => p x.2).map (·.1)

/-- What is meant by a query that works from end to end. -/
structure OnlineQuery (env : OnlineEnv) (ids : List String) : Prop where
  /-- Whatever hbbs finds, the client reads out of its answer. -/
  partition : ∀ seen : ℕ → Registry × ℕ,
    let online := fun i => (seen i).1.answersOnline (seen i).2 (ids.getD i "")
    ∃ onlines offlines, splitStates (peersOnlineStateSeen seen ids) 0 [] [] ids = .ok (onlines, offlines) ∧
      (onlines ++ offlines).Perm ids ∧ onlines = idsAt online ids ∧ offlines = idsAt (fun i => !online i) ids
  fine : MayPanic.Fine (queryOnlineStates env ids)

/-- The answer that the client takes has a bit for each id. -/
def OnlineEnv.EnoughStates (env : OnlineEnv) (ids : List String) : Prop :=
  createOnlineStream env = true → env.sends = true →
    ∀ states, receiveStates 2 env.reads = .ok states → ids.length ≤ 8 * states.length

theorem idsAt_cons (p : ℕ → Bool) (id : String) (ids : List String) :
    idsAt p (id :: ids) = (if p 0 then [id] else []) ++ idsAt (fun i => p (i + 1)) ids := by
  have hshift : ids.zipIdx 1 = (ids.zipIdx 0).map fun x => (x.1, x.2 + 1) := by rw [List.zipIdx_succ]
  unfold idsAt
  rw [List.zipIdx_cons, Nat.zero_add, hshift, List.filter_cons, List.filter_map]
  split <;> simp [Function.comp_def]

theorem idsAt_perm (p : ℕ → Bool) (ids : List String) : (idsAt p ids ++ idsAt (fun i => !p i) ids).Perm ids := by
  induction ids generalizing p with
  | nil => exact .nil
  | cons id ids ih =>
    rw [idsAt_cons, idsAt_cons]
    cases hp : p 0 with
    | true => exact (ih _).cons id
    | false =>
      have htail : (idsAt (fun i => p (i + 1)) ids ++ id :: idsAt (fun i => !p (i + 1)) ids).Perm (id :: ids) :=
        List.perm_middle.trans ((ih _).cons id)
      simpa using htail

theorem idsAt_congr {p q : ℕ → Bool} {ids : List String} (h : ∀ i < ids.length, p i = q i) :
    idsAt p ids = idsAt q ids := by
  unfold idsAt
  congr 1
  refine List.filter_congr fun x hx => ?_
  have hlt := List.snd_lt_add_of_mem_zipIdx hx
  exact h _ (by simpa using hlt)

/-- **The loop** reads the bits as long as there are bytes. -/
theorem splitStates_eq_ok {states : List UInt8} {i : ℕ} {onlines offlines ids : List String}
    (h : i + ids.length ≤ 8 * states.length) :
    splitStates states i onlines offlines ids = .ok (onlines ++ idsAt (fun j => bit states (i + j)) ids,
        offlines ++ idsAt (fun j => !bit states (i + j)) ids) := by
  induction ids generalizing i onlines offlines with
  | nil => simp [splitStates, idsAt]
  | cons id ids ih =>
    rw [List.length_cons] at h
    have hbyte : i / 8 < states.length := by omega
    have hindex : MayPanic.index states (i / 8) = .ok states[i / 8] :=
      MayPanic.index_eq_ok.mpr (List.getElem?_eq_getElem hbyte)
    have hbit : bit states i = (states[i / 8] &&& mask i == mask i) := by
      rw [bit, List.getD_eq_getElem _ _ hbyte]
    rw [splitStates, hindex]
    show (if states[i / 8] &&& mask i == mask i then _ else _) = _
    rw [← hbit, ih (by omega), ih (by omega), idsAt_cons, idsAt_cons]
    simp only [Nat.add_zero, Nat.add_assoc, Nat.add_comm 1]
    cases bit states i <;> simp

/-- It panics where there are not. -/
theorem splitStates_fine_iff {states : List UInt8} {i : ℕ} {onlines offlines ids : List String}
    (hi : i ≤ 8 * states.length) :
    MayPanic.Fine (splitStates states i onlines offlines ids) ↔ i + ids.length ≤ 8 * states.length := by
  induction ids generalizing i onlines offlines with
  | nil => simpa [splitStates] using hi
  | cons id ids ih =>
    rw [List.length_cons]
    by_cases hlt : i < 8 * states.length
    · have hbyte : i / 8 < states.length := by omega
      have hindex : MayPanic.index states (i / 8) = .ok states[i / 8] :=
        MayPanic.index_eq_ok.mpr (List.getElem?_eq_getElem hbyte)
      rw [splitStates, hindex]
      show MayPanic.Fine (if states[i / 8] &&& mask i == mask i then _ else _) ↔ _
      split
      all_goals
        rw [ih hlt]
        omega
    · have hindex : MayPanic.index states (i / 8) = .error .indexOutOfRange := by
        rw [MayPanic.index, List.getElem?_eq_none (by omega)]
      rw [splitStates, hindex]
      exact iff_of_false (MayPanic.not_fine_error _) (by omega)

section Seen

variable {seen : ℕ → Registry × ℕ}

theorem peersOnlineStateSeen_const (s : Registry) (now : ℕ) (peers : List String) :
    peersOnlineStateSeen (fun _ => (s, now)) peers = s.peersOnlineState now peers := by
  unfold peersOnlineStateSeen Registry.peersOnlineState
  congr 1
  exact List.ext_getElem (by simp) (by simp)

theorem length_peersOnlineStateSeen (peers : List String) :
    (peersOnlineStateSeen seen peers).length = (peers.length + 7) / 8 := by
  rw [peersOnlineStateSeen, length_setAll]
  exact List.length_replicate

theorem bit_peersOnlineStateSeen {peers : List String} {i : ℕ} (hi : i < peers.length) :
    bit (peersOnlineStateSeen seen peers) i = (seen i).1.answersOnline (seen i).2 (peers.getD i "") := by
  rw [peersOnlineStateSeen, bit_setAll]
  · simp [hi]
  · simp only [List.length_mapIdx, zeroed, List.length_replicate]
    omega

end Seen

/-- **A query works from end to end if and only if** the answer that the client takes is long enough. -/
theorem onlineQuery_iff (env : OnlineEnv) (ids : List String) : OnlineQuery env ids ↔ env.EnoughStates ids := by
  have hfine : MayPanic.Fine (queryOnlineStates env ids) ↔ env.EnoughStates ids := by
    unfold queryOnlineStates OnlineEnv.EnoughStates
    split
    · next hstream =>
      split
      · next hsends =>
        cases hreceive : receiveStates 2 env.reads with
        | ok states =>
          show MayPanic.Fine ((splitStates states 0 [] [] ids).bind _) ↔ _
          rw [MayPanic.fine_map, splitStates_fine_iff (Nat.zero_le _), Nat.zero_add]
          constructor
          · rintro hlength - - _ heq
            cases heq
            exact hlength
          · exact fun h => h hstream hsends states rfl
        | error err => exact iff_of_true (MayPanic.fine_ok _) fun _ _ _ heq => nomatch heq
      · next hsends => exact iff_of_true (MayPanic.fine_ok _) fun _ h => absurd h hsends
    · next hstream => exact iff_of_true (MayPanic.fine_ok _) fun h => absurd h hstream
  constructor
  · exact fun h => hfine.mp h.fine
  · refine fun h => ⟨fun seen => ?_, hfine.mpr h⟩
    -- what hbbs answers is always long enough
    have hlength : 0 + ids.length ≤ 8 * (peersOnlineStateSeen seen ids).length := by
      rw [length_peersOnlineStateSeen]
      omega
    have hbits : ∀ i < ids.length, bit (peersOnlineStateSeen seen ids) (0 + i) =
        (seen i).1.answersOnline (seen i).2 (ids.getD i "") := by
      intro i hi
      rw [Nat.zero_add, bit_peersOnlineStateSeen hi]
    refine ⟨_, _, splitStates_eq_ok hlength, ?_, ?_, ?_⟩
    · rw [List.nil_append, List.nil_append]
      exact idsAt_perm _ ids
    · exact idsAt_congr hbits
    · exact idsAt_congr fun i hi => congrArg not (hbits i hi)

/-- A server that answers with no bytes at all. -/
def emptyAnswer : OnlineEnv := ⟨"203.0.113.7:21116".toList, fun _ => true, true, [some (.onlineResponse [])]⟩

theorem not_onlineQuery_emptyAnswer : ¬ OnlineQuery emptyAnswer ["123456789"] := by
  intro h
  have hpanics : queryOnlineStates emptyAnswer ["123456789"] = .error .indexOutOfRange := by decide
  exact MayPanic.not_fine_error _ (hpanics ▸ h.fine)

end RustDesk.Server
