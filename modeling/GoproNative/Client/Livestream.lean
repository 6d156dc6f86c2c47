import GoproNative.Client.Polling

/-!
# Waiting for a livestream

`waitUntilReady` ends with the first status that says anything, or with the first error, or
when its time is up.
-/

namespace GoproNative

namespace LivestreamClient

open Body (Polls sent events)

variable {message : Bytes} {fromBuffer : Bytes → Option NotifyLiveStreamStatus}
  {timeout poll start t : Int} {w : Waiting}
  {r : Except LivestreamError NotifyLiveStreamStatus}
  {labels : List (BodyEvent × Option ProtobufRequest)}

/-- What an answer to `status` makes of the wait. -/
def judge : Except LivestreamError NotifyLiveStreamStatus →
    Option (Except LivestreamError NotifyLiveStreamStatus)
  | .error e => some (.error e)
  | .ok s => heedStatus s

def readiness (timeout : Int) :
    Poll (Except LivestreamError NotifyLiveStreamStatus)
      (Except LivestreamError NotifyLiveStreamStatus) where
  judge := judge
  expired := .error timedOut
  timeout := timeout

/-- The body at a stage of the wait. -/
def atStage (start : Int) :
    Poll.Stage (Except LivestreamError NotifyLiveStreamStatus) → Waiting
  | .asking => .asking start
  | .resting => .resting start
  | .over r => .finished r

theorem atStage_check (timeout start now : Int) :
    atStage start ((readiness timeout).check start now) = whileInTime timeout start now := by
  rw [Poll.check, apply_ite (atStage start)]
  rfl

theorem atStage_heed (timeout start : Int)
    (a : Except LivestreamError NotifyLiveStreamStatus) :
    atStage start ((readiness timeout).heed a) =
      match a with
      | .error e => .finished (.error e)
      | .ok s =>
          match heedStatus s with
          | some r => .finished r
          | none => .resting start := by
  rcases a with e | s
  · rfl
  · have hjudge : (readiness timeout).judge (.ok s) = heedStatus s := rfl
    rcases hs : heedStatus s with _ | r
    all_goals
      simp only [Poll.heed, hjudge, hs]
      rfl

end LivestreamClient

end GoproNative
