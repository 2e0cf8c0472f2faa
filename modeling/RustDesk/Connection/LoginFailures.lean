import RustDesk.Common.Run
import RustDesk.Net.AddrMangle

/-!
# The table of failed logins

References: `src/server/connection.rs` (`LOGIN_FAILURES`, `get_ipv6_prefixes`,
`bump_failure_entry`, `update_failure_with_scope`, `check_failure_with_scope`).

The table is shared by all connections. A handler takes its lock once for each key that it checks and
once more to record the outcome, so between any two of these others may have theirs: `step` is one
critical section of one handler. Table 0 counts wrong passwords and table 1 wrong codes.
-/

namespace RustDesk.Connection

open Net

/-! ## Entries -/

/-- An entry: the minute of the last failure, the failures in that minute, and all of them. -/
structure FailureEntry where
  minute : ℕ
  inMinute : ℕ
  total : ℕ
deriving DecidableEq

/-- What `unwrap_or` makes of no entry. -/
def FailureEntry.none : FailureEntry := ⟨0, 0, 0⟩

/-- `bump_failure_entry`. The counters are `i32`; no process records 2^31 failures. -/
def bumpFailureEntry (cur : FailureEntry) (time : ℕ) : FailureEntry :=
  if cur.minute = time then ⟨cur.minute, cur.inMinute + 1, cur.total + 1⟩
  else ⟨time, 1, cur.total + 1⟩

/-! ## Keys -/

/-- A key of the table: the text of an address, or of an IPv6 network and its prefix length. -/
inductive FailureKey
  | ip (ip : IpAddr)
  | net (prefixNum : ℕ) (net : BitVec 128)
deriving DecidableEq

/-- `u128::from_be_bytes`. -/
def u128OfBeBytes (octets : List UInt8) : BitVec 128 :=
  octets.foldl (fun n b => n <<< 8 ||| b.toBitVec.setWidth 128) 0

/-- `mask_u128`. -/
def maskU128 (addr : BitVec 128) (prefixNum : ℕ) : BitVec 128 :=
  let mask := if prefixNum = 0 ∨ prefixNum > 128 then 0#128 else BitVec.allOnes 128 <<< (128 - prefixNum)
  addr &&& mask

/-- The network of an address, with its prefix length. -/
def netKey (octets : Vector UInt8 16) (prefixNum : ℕ) : FailureKey :=
  .net prefixNum (maskU128 (u128OfBeBytes octets.toList) prefixNum)

/-- `get_ipv6_prefixes`. -/
def getIpv6Prefixes : IpAddr → Option (FailureKey × FailureKey × FailureKey)
  | .v6 octets => some (netKey octets 64, netKey octets 56, netKey octets 48)
  | .v4 _ => none

/-- The keys that `check_failure` checks before the address, with their prefix lengths and limits. -/
def prefixChecks (ip : IpAddr) : List (FailureKey × ℕ × ℕ) :=
  match getIpv6Prefixes ip with
  | some (p64, p56, p48) => [(p64, 64, 60), (p56, 56, 80), (p48, 48, 100)]
  | none => []

/-- The keys that `update_failure` updates. -/
def failureKeys (ip : IpAddr) : List FailureKey :=
  match getIpv6Prefixes ip with
  | some (p64, p56, p48) => [p64, p56, p48, .ip ip]
  | none => [.ip ip]

/-! ## One table -/

/-- `HashMap<String, (i32, i32, i32)>`. -/
abbrev FailureMap := FailureKey → Option FailureEntry

namespace FailureMap

/-- `get(key).copied().unwrap_or((0, 0, 0))`. -/
def entry (m : FailureMap) (key : FailureKey) : FailureEntry := (m key).getD .none

def bump (m : FailureMap) (time : ℕ) (key : FailureKey) : FailureMap :=
  Function.update m key (some (bumpFailureEntry (m.entry key) time))

def remove (m : FailureMap) (key : FailureKey) : FailureMap := Function.update m key none

/-- `update_failure_with_scope` of the default scope, for the entry and the time of the check. -/
def updateFailure (m : FailureMap) (ip : IpAddr) (failure : FailureEntry) (time : ℕ)
    (remove : Bool) : FailureMap :=
  if remove then
    if failure.minute ≠ 0 then (failureKeys ip).foldl FailureMap.remove m else m
  else (failureKeys ip).foldl (bump · time ·) m

/-- `check_failure_ipv6_prefix`: what it refuses with. -/
def checkPrefix (m : FailureMap) (key : FailureKey) (prefixNum thresh : ℕ) : Option String :=
  if (m.entry key).total > thresh then
    some s!"Too many wrong attempts for IPv6 prefix /{prefixNum}"
  else none

/-- What `check_failure` refuses an address with. -/
def checkIp (m : FailureMap) (ip : IpAddr) (time : ℕ) : Option String :=
  let failure := m.entry (.ip ip)
  if failure.total > 30 then some "Too many wrong attempts"
  else if time = failure.minute ∧ failure.inMinute > 6 then some "Please try 1 minute later"
  else none

end FailureMap

/-! ## Handlers -/

/-- Where a handler is: it has checked some of the prefixes, it has passed all checks with the entry of
its address, or the password or code was compared and `update_failure` comes next. -/
inductive FailureStage
  | check (done : ℕ)
  | compare (failure : FailureEntry)
  | update (failure : FailureEntry) (remove : Bool)
deriving DecidableEq

/-- A handler from its `check_failure` to its `update_failure`. -/
structure FailureHandler where
  table : Fin 2
  ip : IpAddr
  time : ℕ
  stage : FailureStage
deriving DecidableEq

/-- What the log keeps: an attempt refused, a comparison that failed, a failure recorded with its
minute, and entries removed by a success. -/
inductive FailureEvent
  | refused (table : Fin 2) (ip : IpAddr) (err : String)
  | wrong (table : Fin 2) (ip : IpAddr)
  | recorded (table : Fin 2) (ip : IpAddr) (time : ℕ)
  | reset (table : Fin 2) (ip : IpAddr)
deriving DecidableEq

/-- `LOGIN_FAILURES`, the handlers under way, the clock as last read, and the log. -/
structure FailureState where
  tables : Fin 2 → FailureMap
  handlers : List FailureHandler
  clock : ℕ
  log : List FailureEvent

namespace FailureState

def init : FailureState := ⟨fun _ _ => none, [], 0, []⟩

/-- One critical section. A comparison says whether the password or code was accepted (the password of
a desktop user is compared by the desktop start), or neither: there is nothing to compare. -/
inductive Action
  | start (table : Fin 2) (ip : IpAddr) (time : ℕ)
  | read (handler : ℕ)
  | compare (handler : ℕ) (accepted : Option Bool)
  | update (handler : ℕ)
deriving DecidableEq

/-- A handler moves on. -/
def moveTo (s : FailureState) (n : ℕ) (h : FailureHandler) (stage : FailureStage) : FailureState :=
  { s with handlers := s.handlers.set n { h with stage := stage } }

/-- A handler is done. -/
def leave (s : FailureState) (n : ℕ) : FailureState :=
  { s with handlers := s.handlers.eraseIdx n }

/-- A handler that is refused is done. -/
def refuse (s : FailureState) (n : ℕ) (h : FailureHandler) (err : String) : FailureState :=
  { s.leave n with log := s.log ++ [.refused h.table h.ip err] }

/-- One read of `check_failure`. -/
def readStep (s : FailureState) (n : ℕ) (h : FailureHandler) (done : ℕ) : FailureState :=
  match (prefixChecks h.ip)[done]? with
  | some (key, prefixNum, thresh) =>
    match (s.tables h.table).checkPrefix key prefixNum thresh with
    | some err => s.refuse n h err
    | none => s.moveTo n h (.check (done + 1))
  | none =>
    match (s.tables h.table).checkIp h.ip h.time with
    | some err => s.refuse n h err
    | none => s.moveTo n h (.compare ((s.tables h.table).entry (.ip h.ip)))

/-- The comparison between check and update. -/
def compareStep (s : FailureState) (n : ℕ) (h : FailureHandler) (failure : FailureEntry) :
    Option Bool → FailureState
  | none => s.leave n
  | some true => s.moveTo n h (.update failure true)
  | some false =>
    { s.moveTo n h (.update failure false) with log := s.log ++ [.wrong h.table h.ip] }

/-- What the log keeps of an update. -/
def updateEvents (h : FailureHandler) (failure : FailureEntry) (remove : Bool) :
    List FailureEvent :=
  if remove then
    if failure.minute ≠ 0 then [.reset h.table h.ip] else []
  else [.recorded h.table h.ip h.time]

/-- `update_failure`. -/
def updateStep (s : FailureState) (n : ℕ) (h : FailureHandler) (failure : FailureEntry)
    (remove : Bool) : FailureState :=
  { s.leave n with
    tables := Function.update s.tables h.table
      ((s.tables h.table).updateFailure h.ip failure h.time remove)
    log := s.log ++ updateEvents h failure remove }

/-- One critical section of one handler. -/
def step (s : FailureState) : Action → Option FailureState
  | .start table ip time =>
    some { s with handlers := s.handlers ++ [⟨table, ip, time, .check 0⟩], clock := time }
  | .read n =>
    match s.handlers[n]? with
    | some h =>
      match h.stage with
      | .check done => some (s.readStep n h done)
      | _ => none
    | none => none
  | .compare n accepted =>
    match s.handlers[n]? with
    | some h =>
      match h.stage with
      | .compare failure => some (s.compareStep n h failure accepted)
      | _ => none
    | none => none
  | .update n =>
    match s.handlers[n]? with
    | some h =>
      match h.stage with
      | .update failure remove => some (s.updateStep n h failure remove)
      | _ => none
    | none => none

end FailureState

end RustDesk.Connection
