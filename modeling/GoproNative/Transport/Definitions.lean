import GoproNative.BringUp.Definitions
import GoproNative.Camera.Definitions

/-!
# The transport

This module embeds `GoProBleTransport` in `ble_transport.dart`: what it takes for a camera
among the devices that BlueZ lists, the agent that answers pairing requests, and the calls
of `_bringUp` that are under way at a time, one for each `connect` and one for each camera
whose link dropped.  They take turns at their awaits and share one variable, `_pairing`.
-/

namespace GoproNative

/-- A device of `_client.devices`, with what BlueZ says of it at the time. -/
structure Listed where
  device : BlueZDevice
  addressType : String
  deviceAlias : String
  uuids : List String
  connected : Bool
  paired : Bool
  chars : List GattUuid
  deriving DecidableEq

def controlQueryService : String := "0000fea6-0000-1000-8000-00805f9b34fb"

/-- `toUpperCase`, of a text that is ASCII. -/
def upperCase (text : String) : List Char := text.toList.map Char.toUpper

/-- `toLowerCase`, of a text that is ASCII. -/
def lowerCase (text : String) : List Char := text.toList.map Char.toLower

namespace Listed

def exposesControl (d : Listed) : Bool :=
  d.uuids.any fun u => lowerCase u = controlQueryService.toList

/-- `address` is what the caller asked for, if anything. -/
def hasAddress (d : Listed) (address : Option String) : Bool :=
  address.all fun asked => upperCase d.device.address = upperCase asked

end Listed

/-- `_candidate`. -/
def candidate (devices : List Listed) (address : Option String) : Option Listed :=
  devices.find? fun d => d.addressType = "random" && d.hasAddress address && d.exposesControl

/-- `_classicLink`. -/
def classicLink (devices : List Listed) : Option Listed :=
  devices.find? fun d => d.addressType = "public" && d.connected &&
    "GoPro".toList.isPrefixOf d.deviceAlias.toList

/-- What a pass sees among the devices, with its candidate. -/
def sighting (devices : List Listed) (device : Option Listed) : Sighting where
  candidatePresent := device.isSome
  classicLinkUp := (classicLink devices).isSome
  paired := device.any Listed.paired
  chars := (device.map Listed.chars).getD []

/-- A call of `_bringUp`. -/
structure Ascent where
  /-- The camera that reconnects; `none` for a call of `connect`. -/
  owner : Option Nat
  address : Option String
  climb : Climb
  device : Option Listed := none
  /-- At `await device.pair()`. -/
  pairs : Bool := false
  /-- The caller has gone on. -/
  taken : Bool := false

namespace Ascent

/-- The climb has an end that its caller learns of in this way. -/
def Gives (a : Ascent) : Except DartError Attached → Prop
  | .ok attached => a.climb.phase = .returned ∧ a.device.map Listed.device = some attached.device
  | .error _ => a.climb.phase = .failed

instance (a : Ascent) (result : Except DartError Attached) : Decidable (a.Gives result) :=
  match result with
  | .ok attached => inferInstanceAs (Decidable
      (a.climb.phase = .returned ∧ a.device.map Listed.device = some attached.device))
  | .error _ => inferInstanceAs (Decidable (a.climb.phase = .failed))

end Ascent

/-- A camera, with the link machine that its climbs share. -/
structure Held where
  camera : Camera
  link : LinkMachine
  /-- The call of `_bringUp` that `connect` awaited. -/
  origin : Nat

structure Transport where
  /-- `_agent` listens. -/
  agent : Bool
  pairing : Option String := none
  ascents : List Ascent := []
  cameras : List Held := []

inductive TransportOp
  | connect (address : Option String)
  /-- A pass of the loop of `_bringUp`, up to `_act`. -/
  | looked (i : Nat) (devices : List Listed) (nowMs : UInt64)
  /-- `_act` comes to `pair()`. -/
  | paired (i : Nat)
  /-- Whatever else happens to a climb. -/
  | climbed (i : Nat) (e : ClimbEvent)
  /-- `connect` goes on behind its `_bringUp`. -/
  | connected (i : Nat) (cfg : SessionConfig) (reconnectTimeoutMs : Nat) (attached : Attached)
      (nowMs : UInt64)
  /-- `_onDrop` goes on behind its `_bringUp`. -/
  | broughtUp (i : Nat) (result : Except DartError Attached) (nowMs : UInt64)
  /-- Whatever else happens to a camera. -/
  | camera (k : Nat) (op : CameraOp)
  | agentRequest (path : String)
  /-- `close` of the transport. -/
  | closed

/-- What BlueZ sees of the pairing. -/
inductive Effect
  | pair (path : String)
  /-- The call of `pair` ended. -/
  | pairOver
  | respond (accepted : Bool)
  deriving DecidableEq

namespace Transport

/-- The loop of `_bringUp` begins. -/
def ascend (t : Transport) (owner : Option Nat) (address : Option String)
    (machine : LinkMachine) : Transport :=
  { t with ascents := t.ascents ++ [{
      owner := owner, address := address
      climb := { machine := machine, connected := false } }] }

def setAscent (t : Transport) (i : Nat) (a : Ascent) : Transport :=
  { t with ascents := t.ascents.set i a }

/-- A turn; `none` where it cannot begin. -/
def next (t : Transport) : TransportOp → Option (Transport × List Effect)
  | .connect address => some (t.ascend none address { cfg := {} }, [])
  | .looked i devices nowMs => do
      let a ← t.ascents[i]?
      let device := candidate devices a.address
      if device.all fun d => d.connected = a.climb.connected then
        let climb ← a.climb.step (.observed (sighting devices device) nowMs)
        some (t.setAscent i { a with device := device, climb := climb }, [])
      else none
  | .paired i => do
      let a ← t.ascents[i]?
      let d ← a.device
      if a.climb.phase = .acting .pair ∧ a.pairs = false then
        some ({ t.setAscent i { a with pairs := true } with
            pairing := some d.device.objectPath },
          [.pair d.device.objectPath])
      else none
  | .climbed _ (.observed _ _) => none
  | .climbed i e => do
      let a ← t.ascents[i]?
      let climb ← a.climb.step e
      -- The `finally` behind `pair()`.
      if a.pairs ∧ climb.phase ≠ .acting .pair then
        some ({ t.setAscent i { a with climb := climb, pairs := false } with pairing := none },
          [.pairOver])
      else some (t.setAscent i { a with climb := climb }, [])
  | .connected i cfg reconnectTimeoutMs attached nowMs => do
      let a ← t.ascents[i]?
      if a.owner = none ∧ a.taken = false ∧ a.Gives (.ok attached) then
        let t := t.setAscent i { a with taken := true }
        match Camera.connect cfg reconnectTimeoutMs attached nowMs with
        | .ok c => some ({ t with cameras := t.cameras ++ [⟨c, a.climb.machine, i⟩] }, [])
        | .error _ => some (t, [])
      else none
  | .broughtUp i result nowMs => do
      let a ← t.ascents[i]?
      let k ← a.owner
      let h ← t.cameras[k]?
      if a.taken = false ∧ a.Gives result then
        let r ← h.camera.next (.broughtUp result nowMs)
        some ({ t.setAscent i { a with taken := true } with
            cameras := t.cameras.set k { h with camera := r.1, link := a.climb.machine } }, [])
      else none
  | .camera _ (.broughtUp _ _) => none
  | .camera k op => do
      let h ← t.cameras[k]?
      let r ← h.camera.next op
      let t := { t with cameras := t.cameras.set k { h with camera := r.1 } }
      if r.1.dropping = some .climbing ∧ h.camera.dropping ≠ some .climbing then
        some (t.ascend (some k) (some h.camera.device.address) h.link, [])
      else some (t, [])
  | .agentRequest path =>
      if t.agent then some (t, [.respond (decide (t.pairing = some path))]) else none
  | .closed => some ({ t with agent := false }, [])

/-- All runs, whether or not the agent could be registered. -/
def lts : Lts Transport (TransportOp × List Effect) :=
  .ofGuarded (fun t => ∃ agent, t = { agent := agent }) next

end Transport

end GoproNative
