import Mathlib.Algebra.Order.Ring.Int
import Mathlib.Data.List.AList
import RustDesk.Services.ServiceInner

/-!
# The displays that a connection captures

References: `src/server/connection.rs` (`capture_displays`), `src/server.rs` (`Server`), `src/server/video_service.rs`
(`get_service_name`). There is a service for each display, and one helper of the server with two flags takes
the connection in and out of them.
-/

namespace RustDesk.Services

/-- The name of a service. -/
abbrev ServiceName := List Char

inductive VideoSource
  | monitor
  | camera
  deriving DecidableEq

def VideoSource.serviceNamePrefix : VideoSource → ServiceName
  | .monitor => "monitor".toList
  | .camera => "camera".toList

def getServiceName (source : VideoSource) (idx : ℕ) : ServiceName :=
  source.serviceNamePrefix ++ Nat.toDigits 10 idx

def NAME_WINDOW_FOCUS : ServiceName := "window_focus".toList

def isVideoServiceName (name : ServiceName) : Bool :=
  VideoSource.monitor.serviceNamePrefix.isPrefixOf name ||
    VideoSource.camera.serviceNamePrefix.isPrefixOf name

namespace Service

def onSubscribe (service : Service) (sub : ConnId) : Service :=
  ⟨service.1.onSubscribe sub, service.2.onSubscribe sub⟩

def onUnsubscribe (service : Service) (id : ConnId) : Service :=
  ⟨service.1.onUnsubscribe id, service.2.onUnsubscribe id⟩

/-- `video_service::new`. -/
def newVideo (source : VideoSource) (idx : ℕ) : Service :=
  ⟨.new (getServiceName source idx) true, ServiceInner.separate_new _ _⟩

end Service

/-! ## The server -/

structure Server where
  services : AList fun _ : ServiceName => Service

namespace Server

def contains (server : Server) (name : ServiceName) : Bool := (server.services.lookup name).isSome

def addService (server : Server) (name : ServiceName) (service : Service) : Server :=
  ⟨server.services.insert name service⟩

/-- `is_subed` of the service with a name. -/
def isSubed (server : Server) (name : ServiceName) (id : ConnId) : Bool :=
  match server.services.lookup name with
  | some service => service.1.isSubed id
  | none => false

def subscribe (server : Server) (name : ServiceName) (conn : ConnId) (sub : Bool) : Server :=
  match server.services.lookup name with
  | some service =>
    if service.1.isSubed conn = sub then server
    else ⟨server.services.insert name (if sub then service.onSubscribe conn else service.onUnsubscribe conn)⟩
  | none => server

def getSubbedDisplaysCount (server : Server) (connId : ConnId) : ℕ :=
  (server.services.keys.filter fun name => isVideoServiceName name && server.isSubed name connId).length

/-- One round of the loop of `capture_displays`. -/
def captureDisplay (conn : ConnId) (displays : List ServiceName) (includes excludes : Bool) (server : Server)
    (name : ServiceName) : Server :=
  if isVideoServiceName name then
    if displays.contains name then if includes then server.subscribe name conn true else server
    else if excludes then server.subscribe name conn false
    else server
  else server

def captureDisplays (server : Server) (conn : ConnId) (source : VideoSource) (displays : List ℕ)
    (includes excludes : Bool) : Server :=
  let displays := displays.map (getServiceName source)
  server.services.keys.foldl (captureDisplay conn displays includes excludes) server

end Server

/-! ## The connection -/

structure CaptureDisplays where
  add : List ℤ
  sub : List ℤ
  set : List ℤ

/-- `d as usize`. -/
def asUsize (d : ℤ) : ℕ := (d % 2 ^ 64).toNat

structure Connection where
  id : ConnId
  viewCamera : Bool
  followRemoteWindow : Bool
  multiUiSession : Bool

namespace Connection

def videoSource (conn : Connection) : VideoSource := if conn.viewCamera then .camera else .monitor

/-- The services of displays that are not there yet. -/
def addVideoServices (source : VideoSource) (server : Server) (displays : List ℕ) : Server :=
  displays.foldl (fun server display =>
    let serviceName := getServiceName source display
    if server.contains serviceName then server
    else server.addService serviceName (.newVideo source display)) server

def captureDisplays (conn : Connection) (server : Server) (add sub set : List ℕ) : Connection × Server :=
  let source := conn.videoSource
  let server := addVideoServices source (addVideoServices source server add) set
  let server :=
    if !add.isEmpty then server.captureDisplays conn.id source add true false
    else if !sub.isEmpty then server.captureDisplays conn.id source sub false true
    else server.captureDisplays conn.id source set true true
  let conn := { conn with multiUiSession := decide (1 < server.getSubbedDisplaysCount conn.id) }
  let server :=
    if conn.followRemoteWindow then server.subscribe NAME_WINDOW_FOCUS conn.id (!conn.multiUiSession) else server
  (conn, server)

/-- The handler of the message. -/
def onCaptureDisplays (conn : Connection) (server : Server) (displays : CaptureDisplays) : Connection × Server :=
  conn.captureDisplays server (displays.add.map asUsize) (displays.sub.map asUsize) (displays.set.map asUsize)

end Connection

/-! ## Names -/

theorem isVideoServiceName_getServiceName (source : VideoSource) (idx : ℕ) :
    isVideoServiceName (getServiceName source idx) = true := by
  rw [isVideoServiceName, Bool.or_eq_true, List.isPrefixOf_iff_prefix, List.isPrefixOf_iff_prefix]
  cases source with
  | monitor => exact .inl (List.prefix_append _ _)
  | camera => exact .inr (List.prefix_append _ _)

/-- Displays have names of their own. -/
theorem getServiceName_inj {source source' : VideoSource} {idx idx' : ℕ} :
    getServiceName source idx = getServiceName source' idx' ↔ source = source' ∧ idx = idx' := by
  constructor
  · intro h
    have hsource : source = source' := by
      cases source <;> cases source'
      · rfl
      · exact absurd (congrArg List.head? h) (by simp [getServiceName, VideoSource.serviceNamePrefix])
      · exact absurd (congrArg List.head? h) (by simp [getServiceName, VideoSource.serviceNamePrefix])
      · rfl
    subst hsource
    have hdigits := List.append_cancel_left h
    refine ⟨rfl, ?_⟩
    rw [← @Nat.ofDigitChars_ten_toDigits idx, hdigits, Nat.ofDigitChars_ten_toDigits]
  · rintro ⟨rfl, rfl⟩
    rfl

/-! ## One subscription -/

namespace Server

variable {server : Server} {name : ServiceName} {conn : ConnId}

theorem contains_iff : server.contains name = true ↔ name ∈ server.services := AList.lookup_isSome

/-- Only a service that is there has subscribers. -/
theorem contains_of_isSubed (h : server.isSubed name conn = true) : server.contains name = true := by
  unfold isSubed at h
  rw [contains]
  cases hlookup : server.services.lookup name with
  | none => rw [hlookup] at h; cases h
  | some service => rfl

theorem contains_subscribe (sub : Bool) (n : ServiceName) :
    (server.subscribe name conn sub).contains n = server.contains n := by
  unfold subscribe
  cases hlookup : server.services.lookup name with
  | none => rfl
  | some service =>
    dsimp only
    split
    · rfl
    · rw [Bool.eq_iff_iff, contains_iff, contains_iff, AList.mem_insert]
      refine ⟨?_, .inr⟩
      rintro (rfl | h)
      · exact AList.lookup_isSome.mp (by rw [hlookup]; rfl)
      · exact h

/-- **A subscription** is of one connection to one service. -/
theorem isSubed_subscribe (sub : Bool) (n : ServiceName) (i : ConnId) :
    (server.subscribe name conn sub).isSubed n i =
      if n = name ∧ i = conn ∧ server.contains name = true then sub else server.isSubed n i := by
  unfold subscribe
  cases hlookup : server.services.lookup name with
  | none =>
    rw [if_neg]
    rintro ⟨-, -, h⟩
    rw [contains, hlookup] at h
    cases h
  | some service =>
    have hcontains : server.contains name = true := by rw [contains, hlookup]; rfl
    have hold : server.isSubed name i = service.1.isSubed i := by rw [isSubed, hlookup]
    dsimp only
    split
    · next hsame =>
      split
      · next h =>
        obtain ⟨rfl, rfl, -⟩ := h
        rw [hold, hsame]
      · rfl
    · next hother =>
      by_cases hn : n = name
      · subst hn
        have hnew : ∀ service' : Service,
            (⟨server.services.insert n service'⟩ : Server).isSubed n i = service'.1.isSubed i := by
          intro service'
          rw [isSubed, AList.lookup_insert]
        rw [hnew, hold]
        cases sub with
        | true =>
          rw [if_pos rfl, Bool.eq_iff_iff]
          refine (ServiceInner.isSubed_onSubscribe conn i).trans ?_
          split
          · next h => exact iff_of_true (.inr h.2.1) rfl
          · next h => exact or_iff_left fun heq => h ⟨rfl, heq, hcontains⟩
        | false =>
          rw [if_neg Bool.false_ne_true, Bool.eq_iff_iff]
          refine (service.2.isSubed_onUnsubscribe conn i).trans ?_
          split
          · next h => exact iff_of_false (fun hne => hne.2 h.2.1) Bool.false_ne_true
          · next h => exact and_iff_left fun heq => h ⟨rfl, heq, hcontains⟩
      · have hother : ¬ (n = name ∧ i = conn ∧ server.contains name = true) := fun h => hn h.1
        rw [if_neg hother, isSubed, isSubed, AList.lookup_insert_ne hn]

/-! ## The helper with its flags -/

/-- What one round makes of a subscription. -/
def verdict (displays : List ServiceName) (includes excludes : Bool) (name : ServiceName) (old : Bool) : Bool :=
  if name ∈ displays then if includes then true else old else if excludes then false else old

theorem contains_captureDisplay (displays : List ServiceName) (includes excludes : Bool) (n : ServiceName) :
    (captureDisplay conn displays includes excludes server name).contains n = server.contains n := by
  unfold captureDisplay
  split <;> [skip; rfl]
  split <;> split <;> first | rfl | exact contains_subscribe _ n

theorem isSubed_captureDisplay {displays : List ServiceName} {includes excludes : Bool}
    (hname : server.contains name = true) (n : ServiceName) (i : ConnId) :
    (captureDisplay conn displays includes excludes server name).isSubed n i =
      if n = name ∧ i = conn ∧ isVideoServiceName name = true
      then verdict displays includes excludes n (server.isSubed n i) else server.isSubed n i := by
  have hsub (sub : Bool) : (server.subscribe name conn sub).isSubed n i =
      if n = name ∧ i = conn then sub else server.isSubed n i := by
    rw [isSubed_subscribe]
    simp only [hname, and_true]
  unfold captureDisplay verdict
  by_cases hvideo : isVideoServiceName name = true
  · rw [if_pos hvideo]
    simp only [hvideo, and_true, List.contains_iff_mem]
    by_cases hn : n = name
    · subst hn
      by_cases hi : i = conn
      · subst hi
        simp only [true_and, if_true]
        split <;> split <;> first | rfl | (rw [hsub]; simp)
      · simp only [hi, and_false, if_false]
        split <;> split <;> first | rfl | (rw [hsub, if_neg fun h => hi h.2])
    · simp only [hn, false_and, if_false]
      split <;> split <;> first | rfl | (rw [hsub, if_neg fun h => hn h.1])
  · rw [if_neg hvideo, if_neg fun h => hvideo h.2.2]

theorem verdict_verdict (displays : List ServiceName) (includes excludes : Bool) (n : ServiceName)
    (old : Bool) : verdict displays includes excludes n (verdict displays includes excludes n old) =
      verdict displays includes excludes n old := by
  unfold verdict
  split <;> split <;> rfl

/-- **The loop over the services** gives its verdict on each video service. -/
theorem isSubed_foldl {displays : List ServiceName} {includes excludes : Bool} (names : List ServiceName)
    (hnames : ∀ name ∈ names, server.contains name = true) (n : ServiceName) (i : ConnId) :
    (names.foldl (captureDisplay conn displays includes excludes) server).isSubed n i =
      if n ∈ names ∧ i = conn ∧ isVideoServiceName n = true
      then verdict displays includes excludes n (server.isSubed n i) else server.isSubed n i := by
  induction names generalizing server with
  | nil => simp
  | cons name names ih =>
    rw [List.forall_mem_cons] at hnames
    rw [List.foldl_cons, ih, isSubed_captureDisplay hnames.1]
    · by_cases hn : n = name
      · subst hn
        by_cases hi : i = conn ∧ isVideoServiceName n = true
        · simp only [hi, List.mem_cons, true_or, and_self, and_true, if_true, verdict_verdict, ite_self]
        · simp only [hi, and_false, if_false]
      · have hiff : n ∈ name :: names ↔ n ∈ names := by simp [hn]
        simp only [hn, false_and, if_false, hiff]
    · intro name' hname'
      rw [contains_captureDisplay]
      exact hnames.2 name' hname'

theorem isSubed_captureDisplays (source : VideoSource) (displays : List ℕ) (includes excludes : Bool)
    (n : ServiceName) (i : ConnId) :
    (server.captureDisplays conn source displays includes excludes).isSubed n i =
      if server.contains n = true ∧ i = conn ∧ isVideoServiceName n = true
      then verdict (displays.map (getServiceName source)) includes excludes n (server.isSubed n i)
      else server.isSubed n i := by
  have hkeys : ∀ name, name ∈ server.services.keys ↔ server.contains name = true := fun name =>
    AList.mem_keys.symm.trans contains_iff.symm
  rw [captureDisplays, isSubed_foldl _ fun name hname => (hkeys name).mp hname]
  simp only [hkeys]

/-- A service that is put where none was has no subscribers. -/
theorem isSubed_addVideoServices (source : VideoSource) (server : Server) (displays : List ℕ) (n : ServiceName)
    (i : ConnId) : (Connection.addVideoServices source server displays).isSubed n i = server.isSubed n i ∧
      ((Connection.addVideoServices source server displays).contains n = true ↔
        server.contains n = true ∨ n ∈ displays.map (getServiceName source)) := by
  induction displays generalizing server with
  | nil => exact ⟨rfl, by simp [Connection.addVideoServices]⟩
  | cons display displays ih =>
    rw [Connection.addVideoServices, List.foldl_cons]
    refine ⟨(ih _).1.trans ?_, (ih _).2.trans ?_⟩
    · dsimp only
      split
      · rfl
      · next hnew =>
        rw [addService, isSubed, isSubed]
        by_cases hn : n = getServiceName source display
        · rw [hn, AList.lookup_insert]
          rw [contains, Option.not_isSome_iff_eq_none] at hnew
          rw [hnew]
          rfl
        · rw [AList.lookup_insert_ne hn]
    · rw [List.map_cons, List.mem_cons]
      dsimp only
      split
      · next hold =>
        constructor
        · exact fun h => h.imp_right .inr
        · rintro (h | rfl | h)
          · exact .inl h
          · exact .inl hold
          · exact .inr h
      · rw [addService, contains_iff, contains_iff, AList.mem_insert]
        tauto

end Server

/-! ## What the message says -/

/-- What a message about the displays of one source wants of a display. -/
def Wanted (message : CaptureDisplays) (source : VideoSource) (video : VideoSource) (d : ℕ) (old : Prop) : Prop :=
  if message.add ≠ [] then old ∨ video = source ∧ d ∈ message.add.map asUsize
  else if message.sub ≠ [] then old ∧ ¬ (video = source ∧ d ∈ message.sub.map asUsize)
  else video = source ∧ d ∈ message.set.map asUsize

/-- The connection is subscribed to what the message wants, and no other connection is touched. -/
def DoesWhatItSays (conn : Connection) (message : CaptureDisplays) (before after : Server) : Prop :=
  (∀ video d, after.isSubed (getServiceName video d) conn.id = true ↔
    Wanted message conn.videoSource video d (before.isSubed (getServiceName video d) conn.id = true)) ∧
  ∀ name other, other ≠ conn.id → after.isSubed name other = before.isSubed name other

theorem mem_map_getServiceName {source video : VideoSource} {displays : List ℕ} {d : ℕ} :
    getServiceName video d ∈ displays.map (getServiceName source) ↔ video = source ∧ d ∈ displays := by
  rw [List.mem_map]
  constructor
  · rintro ⟨d', hd', hname⟩
    obtain ⟨rfl, rfl⟩ := getServiceName_inj.mp hname
    exact ⟨rfl, hd'⟩
  · rintro ⟨rfl, hd⟩
    exact ⟨d, hd, rfl⟩

/-- The window focus is not a display. -/
theorem isSubed_follow {server : Server} {n : ServiceName} {i : ConnId} (conn : ConnId) (follow sub : Bool)
    (h : isVideoServiceName n = true ∨ i ≠ conn) :
    (if follow then server.subscribe NAME_WINDOW_FOCUS conn sub else server).isSubed n i = server.isSubed n i := by
  split
  · rw [Server.isSubed_subscribe, if_neg]
    rintro ⟨rfl, hi, -⟩
    rcases h with h | h
    · exact absurd h (by decide)
    · exact h hi
  · rfl

/-- **What the handler leaves of a subscription** to a video service, or of another connection. -/
theorem isSubed_captureDisplays (conn : Connection) (server : Server) (add sub set : List ℕ) {n : ServiceName}
    {i : ConnId} (h : isVideoServiceName n = true ∨ i ≠ conn.id) :
    (conn.captureDisplays server add sub set).2.isSubed n i =
      if (server.contains n = true ∨ n ∈ (add ++ set).map (getServiceName conn.videoSource)) ∧ i = conn.id ∧
          isVideoServiceName n = true then
        if add ≠ [] then
          Server.verdict (add.map (getServiceName conn.videoSource)) true false n (server.isSubed n i)
        else if sub ≠ [] then
          Server.verdict (sub.map (getServiceName conn.videoSource)) false true n (server.isSubed n i)
        else Server.verdict (set.map (getServiceName conn.videoSource)) true true n (server.isSubed n i)
      else server.isSubed n i := by
  obtain ⟨hadd, haddContains⟩ := Server.isSubed_addVideoServices conn.videoSource server add n i
  obtain ⟨hset, hsetContains⟩ := Server.isSubed_addVideoServices conn.videoSource
    (Connection.addVideoServices conn.videoSource server add) set n i
  have hcontains : (Connection.addVideoServices conn.videoSource
      (Connection.addVideoServices conn.videoSource server add) set).contains n = true ↔
        server.contains n = true ∨ n ∈ (add ++ set).map (getServiceName conn.videoSource) := by
    rw [hsetContains, haddContains, List.map_append, List.mem_append, or_assoc]
  rw [hadd] at hset
  unfold Connection.captureDisplays
  rw [isSubed_follow conn.id _ _ h]
  cases add with
  | cons a add =>
    rw [List.isEmpty_cons, Bool.not_false, if_pos rfl, Server.isSubed_captureDisplays, hset]
    simp only [hcontains, ne_eq, reduceCtorEq, not_false_eq_true, if_true]
  | nil =>
    rw [List.isEmpty_nil, Bool.not_true, if_neg Bool.false_ne_true]
    simp only [ne_eq, not_true_eq_false, if_false]
    cases sub with
    | cons a sub =>
      rw [List.isEmpty_cons, Bool.not_false, if_pos rfl, Server.isSubed_captureDisplays, hset]
      simp only [hcontains, reduceCtorEq, not_false_eq_true, if_true]
    | nil =>
      rw [List.isEmpty_nil, Bool.not_true, if_neg Bool.false_ne_true, Server.isSubed_captureDisplays, hset]
      simp only [hcontains, not_true_eq_false, if_false]

/-- Of a display, by the fields of the message: `sub` keeps what it names. -/
theorem isSubed_onCaptureDisplays (conn : Connection) (server : Server) (message : CaptureDisplays)
    (video : VideoSource) (d : ℕ) :
    (conn.onCaptureDisplays server message).2.isSubed (getServiceName video d) conn.id = true ↔
      if message.add ≠ [] then
        server.isSubed (getServiceName video d) conn.id = true ∨
          video = conn.videoSource ∧ d ∈ message.add.map asUsize
      else if message.sub ≠ [] then
        server.isSubed (getServiceName video d) conn.id = true ∧
          video = conn.videoSource ∧ d ∈ message.sub.map asUsize
      else video = conn.videoSource ∧ d ∈ message.set.map asUsize := by
  have hvideo := isVideoServiceName_getServiceName video d
  have hcontains : server.isSubed (getServiceName video d) conn.id = true →
      server.contains (getServiceName video d) = true := Server.contains_of_isSubed
  rw [Connection.onCaptureDisplays, isSubed_captureDisplays _ _ _ _ _ (.inl hvideo)]
  simp only [hvideo, and_true, List.map_append, List.mem_append, mem_map_getServiceName, ne_eq, List.map_eq_nil_iff]
  generalize hold : server.isSubed (getServiceName video d) conn.id = old at hcontains
  unfold Server.verdict
  simp only [mem_map_getServiceName]
  by_cases hadd : message.add = []
  · simp only [hadd, not_true_eq_false, if_false, List.map_nil, List.not_mem_nil, and_false, false_or]
    by_cases hsub : message.sub = []
    · simp only [hsub, not_true_eq_false, if_false]
      grind
    · simp only [hsub, not_false_eq_true, if_true]
      grind
  · simp only [hadd, not_false_eq_true, if_true]
    grind

/-- **When a message does what it says**: it adds displays or subtracts none, or nothing can be lost. -/
theorem doesWhatItSays_iff (conn : Connection) (server : Server) (message : CaptureDisplays) :
    DoesWhatItSays conn message server (conn.onCaptureDisplays server message).2 ↔
      message.add ≠ [] ∨ message.sub = [] ∨
        ∀ video d, server.isSubed (getServiceName video d) conn.id = false := by
  have hothers : ∀ name other, other ≠ conn.id →
      (conn.onCaptureDisplays server message).2.isSubed name other = server.isSubed name other := by
    intro name other hother
    rw [Connection.onCaptureDisplays, isSubed_captureDisplays _ _ _ _ _ (.inr hother), if_neg]
    exact fun h => hother h.2.1
  unfold DoesWhatItSays Wanted
  rw [and_iff_left hothers]
  simp only [isSubed_onCaptureDisplays]
  by_cases hadd : message.add = []
  · by_cases hsub : message.sub = []
    · simp [hadd, hsub]
    · simp only [hadd, hsub, ne_eq, not_true_eq_false, if_false, not_false_eq_true, if_true, false_or]
      refine forall_congr' fun video => forall_congr' fun d => ?_
      -- the same subscriptions cannot be both those named and those not named, but for none
      generalize server.isSubed (getServiceName video d) conn.id = old
      cases old with
      | false => simp
      | true => simp only [true_and, Bool.true_eq_false]; tauto
  · simp [hadd]

/-- A connection subscribed to the first two displays, and a message that subtracts the second. -/
theorem not_doesWhatItSays :
    let conn : Connection := ⟨7, false, false, true⟩
    let service (d : ℕ) : Service := ⟨⟨getServiceName .monitor d, {7}, ∅, true⟩, by simp, by simp⟩
    let server : Server := ⟨(AList.insert (getServiceName .monitor 0) (service 0) ∅).insert
      (getServiceName .monitor 1) (service 1)⟩
    ¬ DoesWhatItSays conn ⟨[], [1], []⟩ server (conn.onCaptureDisplays server ⟨[], [1], []⟩).2 := by
  intro conn service server h
  have hkept := (h.1 .monitor 0).mpr ⟨by rfl, by simp [asUsize]⟩
  rw [isSubed_onCaptureDisplays, if_neg (by simp), if_pos (by simp)] at hkept
  exact absurd hkept.2.2 (by decide)

end RustDesk.Services
