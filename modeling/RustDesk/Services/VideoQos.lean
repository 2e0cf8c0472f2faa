import RustDesk.Common.HashMap
import RustDesk.Common.Run
import RustDesk.Services.EncoderBitrate

/-!
# Quality of service of the video

Reference: `src/server/video_qos.rs` (`VideoQoS`). Instants count milliseconds, and counters of type `usize` have no
bound. The users are a `HashMap`, whose entries come in any order, `VideoQos.Step` below.
-/

namespace RustDesk.Services

open MayPanic (addU32 subU32 clamp)

/-! ## Data -/

/-- `FPS`. -/
def stdFps : ℕ := 30

def minFps : ℕ := 1

def maxFps : ℕ := 120

def initFps : ℕ := 15

def maxBrMultiple : ℚ := 1

/-- `ADJUST_RATIO_INTERVAL`, in seconds. -/
def adjustRatioInterval : ℕ := 3

def dynamicScreenThreshold : ℕ := 2

structure UserData where
  autoAdjustFps : Option ℕ
  customFps : Option ℕ
  quality : Option (ℤ × Quality)
  delay : UserDelay
  record : Bool
  deriving DecidableEq

def UserData.default : UserData := ⟨none, none, none, .default, false⟩

structure DisplayData where
  sendCounter : ℕ
  supportChangingQuality : Bool
  deriving DecidableEq

def DisplayData.default : DisplayData := ⟨0, false⟩

def DisplayData.reset (display : DisplayData) : DisplayData := { display with sendCounter := 0 }

abbrev Users := AList fun _ : ℤ => UserData

abbrev Displays := AList fun _ : String => DisplayData

/-- `VideoQoS`. -/
structure VideoQos where
  fps : ℕ
  ratio : ℚ
  users : Users
  displays : Displays
  bitrateStore : ℕ
  adjustRatioInstant : ℕ
  abrConfig : Bool
  newUserInstant : ℕ

/-! ## The fps of a user -/

/-- The minimum and the normal fps at a target ratio. -/
def fpsFor (targetRatio : ℚ) : ℕ × ℕ :=
  if targetRatio ≥ brBest then (8, 16) else if targetRatio ≥ brBalanced then (10, 20) else (12, 24)

/-- `devide_fps`. -/
def devideFps (fps avgDelay : ℕ) : MayPanic ℕ :=
  (MayPanic.div (avgDelay : ℚ) delayThreshold).bind fun times =>
    (MayPanic.div (fps : ℚ) times).bind fun x => .ok (asU32 (⌈x⌉ : ℤ))

/-- The fps in the band of an average delay, and the counter of very short delays. -/
def bandFps (minFps normalFps oldAvgDelay avgDelay fps quick : ℕ) : MayPanic (ℕ × ℕ) :=
  let dividendMs := delayThreshold * minFps
  if avgDelay < 50 then
    let quick := quick + 1
    let step := if fps < normalFps then 1 else 0
    let (quick, step) := if 3 ≤ quick then (0, 5) else (quick, step)
    (addU32 fps step).bind fun fps => .ok (max minFps fps, quick)
  else if avgDelay < 100 then
    let step := if avgDelay < oldAvgDelay then if fps < normalFps then 1 else 0 else 0
    (addU32 fps step).bind fun fps => .ok (max minFps fps, quick)
  else if avgDelay < delayThreshold then .ok (max minFps fps, quick)
  else
    (devideFps fps avgDelay).bind fun devideFps =>
      if avgDelay < 200 then .ok (max minFps devideFps, quick)
      else if avgDelay < 300 then .ok (min minFps devideFps, quick)
      else if avgDelay < 600 then (MayPanic.div dividendMs avgDelay).bind fun fps => .ok (fps, quick)
      else (MayPanic.div dividendMs avgDelay).bind fun fps => .ok (min fps devideFps, quick)

/-- What `user_network_delay` makes of the delays of a user, at the fps in force. -/
def UserDelay.networkDelay (user : UserDelay) (range : ℕ × ℕ) (highestFps fps delay : ℕ) : MayPanic UserDelay :=
  let delay := max delay 10
  user.avgDelay.bind fun oldAvgDelay =>
    let user := user.addDelay delay
    user.avgDelay.bind fun avgDelay =>
      let avgDelay := max avgDelay 10
      (bandFps range.1 range.2 oldAvgDelay avgDelay fps user.quickIncreaseFpsCount).bind fun (fps, quick) =>
        let increase := if avgDelay < delayThreshold then user.increaseFpsCount + 1 else 0
        let (increase, step) := if 3 ≤ increase then (0, 1) else (increase, 0)
        let quick := if avgDelay > 50 then 0 else quick
        (addU32 fps step).bind fun fps =>
          (clamp fps minFps highestFps).bind fun fps =>
            .ok { user with fps := some fps, quickIncreaseFpsCount := quick, increaseFpsCount := increase }

/-! ## The ratio -/

/-- A least ratio is no more than the one at 1 Mbit/s, where that is known. -/
def atMost1mbps (min : ℚ) (ratio1mbps : Option ℚ) : ℚ :=
  match ratio1mbps with
  | some ratio1mbps => if min > ratio1mbps then ratio1mbps else min
  | none => min

/-- `min`, the least ratio of a quality. -/
def minRatio (targetQuality : Quality) (ratio1mbps : Option ℚ) : ℚ :=
  match targetQuality with
  | .best => max (atMost1mbps (brBest / (5 / 2)) ratio1mbps) brMin
  | .balanced => max (atMost1mbps (min (brBalanced / 2) (2 / 5)) ratio1mbps) brMinHighResolution
  | .low => brMinHighResolution
  | .custom _ => brMinHighResolution

/-- `v`, the ratio that the greatest delay asks for. -/
def delayRatio (maxDelay : ℕ) (dynamicScreen : Bool) (currentRatio : ℚ) : ℚ :=
  if maxDelay < 50 then if dynamicScreen then currentRatio * (115 / 100) else currentRatio
  else if maxDelay < 100 then if dynamicScreen then currentRatio * (11 / 10) else currentRatio
  else if maxDelay < delayThreshold then if dynamicScreen then currentRatio * (105 / 100) else currentRatio
  else if maxDelay < 200 then currentRatio * (95 / 100)
  else if maxDelay < 300 then currentRatio * (9 / 10)
  else if maxDelay < 500 then currentRatio * (85 / 100)
  else currentRatio * (8 / 10)

/-- The ratio at 1 Mbit/s and the one at 150 kbit/s more, where the bitrate is known. -/
def bitrateRatios (currentRatio : ℚ) (currentBitrate : ℕ) : MayPanic (Option (ℚ × ℚ)) :=
  if currentBitrate > 0 then
    (MayPanic.div (currentRatio * 1000) (currentBitrate : ℚ)).bind fun ratio1mbps =>
      (addU32 currentBitrate 150).bind fun more =>
        (MayPanic.div ((more : ℚ) * currentRatio) (currentBitrate : ℚ)).bind fun ratioAdd150kbps =>
          .ok (some (max ratio1mbps brMinHighResolution, ratioAdd150kbps))
  else .ok none

/-- The rate of an increase is limited. -/
def limitRatio (v currentRatio : ℚ) (ratioAdd150kbps : Option ℚ) : ℚ :=
  match ratioAdd150kbps with
  | some ratioAdd150kbps =>
    if v > ratioAdd150kbps ∧ ratioAdd150kbps > currentRatio ∧ currentRatio ≥ brSpeed then ratioAdd150kbps else v
  | none => v

/-- `convert_quality`, of an `i32`. -/
def convertQuality (q : ℤ) : MayPanic Quality :=
  if q = 3 then .ok .balanced
  else if q = 2 then .ok .low
  else if q = 4 then .ok .best
  else
    let b : ℚ := (((q >>> (8 : ℕ)) % 4096 * 2 : ℤ) : ℚ) / 100
    (clamp b brMin brMax).bind fun b => .ok (.custom b)

namespace VideoQos

/-- `VideoQoS::default`, at an instant. -/
def default (now : ℕ) : VideoQos := ⟨stdFps, brBalanced, ∅, ∅, 0, now, true, now⟩

variable (qos : VideoQos)

/-- The values of `users`. -/
def userList : List UserData := qos.users.entries.map (·.2)

/-- `fps`. -/
def getFps : ℕ := if qos.fps ≥ minFps ∧ qos.fps ≤ maxFps then qos.fps else stdFps

/-- The seconds per frame. -/
def spf : MayPanic ℚ := MayPanic.div 1 (qos.getFps : ℚ)

/-- `ratio`. -/
def getRatio : VideoQos × ℚ :=
  let ratio := if qos.ratio < brMinHighResolution ∨ qos.ratio > brMax then brBalanced else qos.ratio
  ({ qos with ratio }, ratio)

def inVbrState : Bool := qos.abrConfig && qos.displays.entries.all fun e => e.2.supportChangingQuality

/-- The highest fps of a user. -/
def userFps (user : UserData) : ℕ :=
  let fps := user.customFps.getD stdFps
  match user.autoAdjustFps with
  | some autoAdjustFps => if fps = 0 ∨ autoAdjustFps < fps then autoAdjustFps else fps
  | none => fps

def highestFps : MayPanic ℕ :=
  clamp (((qos.userList.map userFps).filter fun fps => minFps ≤ fps).min?.getD stdFps) minFps maxFps

/-- `max_by` of the times: the last of those that are latest. -/
def laterQuality (latest : Option (ℤ × Quality)) (user : UserData) : Option (ℤ × Quality) :=
  match user.quality, latest with
  | some quality, some latest => if latest.1 > quality.1 then some latest else some quality
  | some quality, none => some quality
  | none, latest => latest

def latestQuality : Quality := ((qos.userList.foldl laterQuality none).getD (0, .balanced)).2

def adjustFps (now : ℕ) : MayPanic VideoQos :=
  qos.highestFps.bind fun highestFps =>
    let fps := (qos.userList.map fun user => user.delay.fps.getD initFps).min?.getD initFps
    let fps := if (qos.userList.any fun user => user.delay.responseDelayed) ∧ fps > minFps + 1 then minFps + 1 else fps
    let fps := if (now - qos.newUserInstant) / 1000 < 1 ∧ fps > initFps then initFps else fps
    (clamp fps minFps highestFps).bind fun fps => .ok { qos with fps }

def adjustRatio (now : ℕ) (dynamicScreen : Bool) : MayPanic VideoQos :=
  if qos.inVbrState then
    (qos.userList.mapM fun user : UserData => user.delay.avgDelay).bind fun delays =>
      match delays.max? with
      | some maxDelay =>
        (bitrateRatios qos.ratio qos.bitrateStore).bind fun ratios =>
          let min := minRatio qos.latestQuality (ratios.map (·.1))
          let max := qos.latestQuality.ratio * maxBrMultiple
          let v := limitRatio (delayRatio maxDelay dynamicScreen qos.ratio) qos.ratio (ratios.map (·.2))
          (clamp v min max).bind fun ratio => .ok { qos with ratio, adjustRatioInstant := now }
      | none => .ok qos
  else .ok qos

/-! ## Calls -/

/-- `enable-abr` as it is in the config. -/
def onConnectionOpen (now : ℕ) (id : ℤ) (abr : Bool) : VideoQos :=
  { qos with users := qos.users.insert id .default, abrConfig := abr, newUserInstant := now }

def onConnectionClose (now : ℕ) (id : ℤ) : VideoQos :=
  let users := qos.users.erase id
  if users.entries.isEmpty then .default now else { qos with users }

/-- `get_mut` of a user. -/
def modifyUser (id : ℤ) (f : UserData → UserData) : VideoQos :=
  match qos.users.lookup id with
  | some user => { qos with users := qos.users.set id (f user) }
  | none => qos

def userCustomFps (id : ℤ) (fps : ℕ) : VideoQos :=
  if fps < minFps ∨ fps > maxFps then qos else qos.modifyUser id fun user => { user with customFps := some fps }

def userAutoAdjustFps (id : ℤ) (fps : ℕ) : VideoQos :=
  if fps < minFps ∨ fps > maxFps then qos else qos.modifyUser id fun user => { user with autoAdjustFps := some fps }

def userImageQuality (id imageQuality time : ℤ) : MayPanic VideoQos :=
  (convertQuality imageQuality).bind fun quality =>
    match qos.users.lookup id with
    | some user =>
      let qos := { qos with users := qos.users.set id { user with quality := some (time, quality) } }
      .ok { qos with ratio := qos.latestQuality.ratio }
    | none => .ok qos

def userRecord (id : ℤ) (v : Bool) : VideoQos := qos.modifyUser id fun user => { user with record := v }

def userNetworkDelay (os : TargetOs) (now : ℕ) (id : ℤ) (delay : ℕ) : MayPanic VideoQos :=
  qos.highestFps.bind fun highestFps =>
    match qos.users.lookup id with
    | some user =>
      (user.delay.networkDelay (fpsFor qos.latestQuality.ratio) highestFps qos.fps delay).bind fun delay =>
        (adjustFps { qos with users := qos.users.set id { user with delay } } now).bind fun qos =>
          if user.delay.fps.isNone ∧ os ≠ .linux then qos.adjustRatio now false else .ok qos
    | none => qos.adjustFps now

def userDelayResponseElapsed (now : ℕ) (id : ℤ) (elapsed : ℕ) : MayPanic VideoQos :=
  match qos.users.lookup id with
  | some user =>
    if elapsed > 2000 then
      let delay := { user.delay with responseDelayed := true }.addDelay (elapsed % 2 ^ 32)
      adjustFps { qos with users := qos.users.set id { user with delay } } now
    else
      .ok { qos with users := qos.users.set id { user with delay := { user.delay with responseDelayed := false } } }
  | none => .ok qos

def newDisplay (name : String) : VideoQos := { qos with displays := qos.displays.insert name .default }

def removeDisplay (name : String) : VideoQos := { qos with displays := qos.displays.erase name }

/-- `get_mut` of a display. -/
def modifyDisplay (name : String) (f : DisplayData → DisplayData) : VideoQos :=
  match qos.displays.lookup name with
  | some display => { qos with displays := qos.displays.set name (f display) }
  | none => qos

def setSupportChangingQuality (name : String) (support : Bool) : VideoQos :=
  qos.modifyDisplay name fun display => { display with supportChangingQuality := support }

/-- All counters are set to 0. -/
def resetCounters (displays : Displays) : Displays := displays.mapValues fun _ => DisplayData.reset

def updateDisplayData (now : ℕ) (name : String) (sendCounter : ℕ) : MayPanic VideoQos :=
  let qos := qos.modifyDisplay name fun display => { display with sendCounter := display.sendCounter + sendCounter }
  (qos.adjustFps now).bind fun qos =>
    if qos.inVbrState then
      if (now - qos.adjustRatioInstant) / 1000 ≥ adjustRatioInterval then
        let dynamicScreen :=
          qos.displays.entries.any fun e => e.2.sendCounter ≥ adjustRatioInterval * dynamicScreenThreshold
        adjustRatio { qos with displays := resetCounters qos.displays } now dynamicScreen
      else .ok qos
    else .ok { qos with ratio := qos.latestQuality.ratio }

end VideoQos

/-- A call of the controller. What a connection reports is told with the user's id. -/
inductive QosCall
  | onConnectionOpen (id : ℤ) (abr : Bool)
  | onConnectionClose (id : ℤ)
  | userCustomFps (id : ℤ) (fps : ℕ)
  | userAutoAdjustFps (id : ℤ) (fps : ℕ)
  | userImageQuality (id imageQuality time : ℤ)
  | userRecord (id : ℤ) (v : Bool)
  | userNetworkDelay (id : ℤ) (delay : ℕ)
  | userDelayResponseElapsed (id : ℤ) (elapsed : ℕ)
  | newDisplay (name : String)
  | removeDisplay (name : String)
  | setSupportChangingQuality (name : String) (support : Bool)
  | updateDisplayData (name : String) (sendCounter : ℕ)
  | storeBitrate (encoder : Encoder)
  | ratio

/-- The delays that are reported have the bound. -/
def QosCall.InRange : QosCall → Prop
  | .userNetworkDelay _ delay => delay < delayBound
  | .userDelayResponseElapsed _ elapsed => elapsed < delayBound
  | _ => True

/-- The calls that adjust the fps. -/
def QosCall.Adjusts (qos : VideoQos) : QosCall → Prop
  | .userNetworkDelay _ _ => True
  | .userDelayResponseElapsed id elapsed => id ∈ qos.users ∧ elapsed > 2000
  | .updateDisplayData _ _ => True
  | _ => False

namespace VideoQos

variable (os : TargetOs)

/-- A call at an instant. -/
def call (now : ℕ) (qos : VideoQos) : QosCall → MayPanic VideoQos
  | .onConnectionOpen id abr => .ok (qos.onConnectionOpen now id abr)
  | .onConnectionClose id => .ok (qos.onConnectionClose now id)
  | .userCustomFps id fps => .ok (qos.userCustomFps id fps)
  | .userAutoAdjustFps id fps => .ok (qos.userAutoAdjustFps id fps)
  | .userImageQuality id imageQuality time => qos.userImageQuality id imageQuality time
  | .userRecord id v => .ok (qos.userRecord id v)
  | .userNetworkDelay id delay => qos.userNetworkDelay os now id delay
  | .userDelayResponseElapsed id elapsed => qos.userDelayResponseElapsed now id elapsed
  | .newDisplay name => .ok (qos.newDisplay name)
  | .removeDisplay name => .ok (qos.removeDisplay name)
  | .setSupportChangingQuality name support => .ok (qos.setSupportChangingQuality name support)
  | .updateDisplayData name sendCounter => qos.updateDisplayData now name sendCounter
  | .storeBitrate encoder => .ok { qos with bitrateStore := encoder.bitrate os }
  | .ratio => .ok qos.getRatio.1

/-- One call, after which the entries of `users` stand in any order. -/
def Step (qos : VideoQos) (a : ℕ × QosCall) (next : VideoQos) : Prop :=
  a.2.InRange ∧ ∃ qos', qos.call os a.1 a.2 = .ok qos' ∧ next.users.entries.Perm qos'.users.entries ∧
    next = { qos' with users := next.users }

end VideoQos

end RustDesk.Services
