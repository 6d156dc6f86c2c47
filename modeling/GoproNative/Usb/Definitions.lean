import GoproNative.Framing.Definitions
import Mathlib.Data.List.AList

/-!
# USB discovery

This module embeds `gopro_usb.cpp` and the worker of `gopro_bridge.cpp`: the identity
of a camera, the sampling of its readiness, the hotplug callback, and one pass of
`worker_loop`.

What libusb tells of a device, and what the probes of sysfs, of the interfaces and of
the camera's port answer, is the environment's choice.  The callbacks and the passes
run on one thread; a store to one of the two atomics falls between them.
-/

namespace GoproNative

namespace Usb

/-! ## Identity -/

/-- The bytes of a text in ASCII. -/
def ascii (text : String) : Bytes := text.toList.map fun c => c.toNat.toUInt8

/-- `{}` of `std::format`, for an integer. -/
def format (n : UInt8) : Bytes :=
  (Nat.toDigits 10 n.toNat).map fun c => c.toNat.toUInt8

/-- `std::isdigit`. -/
def isDigit (b : UInt8) : Bool := 0x30 ≤ b && b ≤ 0x39

/-- The address that Open GoPro derives from the last three digits of the serial
number. -/
def deriveIp (serial : Bytes) : Option Bytes :=
  if serial.length < 3 then none
  else
    match serial.drop (serial.length - 3) with
    | [x, y, z] =>
        if isDigit x && isDigit y && isDigit z then
          some (ascii "172.2" ++ x :: ascii ".1" ++ y :: z :: ascii ".51")
        else none
    | _ => none

/-- The entry of a device in `/sys/bus/usb/devices`. -/
def sysfsName (bus : UInt8) : List UInt8 → Bytes
  | [] => ascii "usb" ++ format bus
  | p :: ports =>
      format bus ++ ascii "-" ++ format p ++ ports.flatMap fun p => ascii "." ++ format p

inductive SerialSource
  | none
  | descriptor
  | sysfs
  deriving DecidableEq, Repr

inductive Readiness
  | absent
  | usbPresent
  | netdevBound
  | hostAddressed
  | l3Ready
  deriving DecidableEq, Repr

def SerialSource.value : SerialSource → UInt8
  | none => 0
  | descriptor => 1
  | sysfs => 2

def Readiness.value : Readiness → UInt8
  | absent => 0
  | usbPresent => 1
  | netdevBound => 2
  | hostAddressed => 3
  | l3Ready => 4

structure Camera where
  vid : UInt16 := 0
  pid : UInt16 := 0
  bus : UInt8
  address : UInt8
  ports : List UInt8
  sysfsName : Bytes
  serial : Bytes := []
  serialSource : SerialSource := .none
  ip : Bytes := []
  netdev : Bytes := []
  netdevFirstSeen : Bytes := []
  netdevRenamed : Bool := false
  linkState : Bytes := []
  hostIp : Bytes := []
  readiness : Readiness := .absent
  hasCdcInterface : Bool := false
  deriving DecidableEq

/-! ## Readiness -/

/-- What the probes answer while a camera is sampled. -/
structure Snapshot where
  /-- Whether `/sys/bus/usb/devices` has the entry. -/
  present : Bytes → Bool
  /-- The interface bound under the entry, empty if there is none. -/
  findNetdev : Bytes → Bytes
  /-- `operstate` of an interface. -/
  linkState : Bytes → Bytes
  /-- The address of the host on an interface, empty if it has none. -/
  hostIpv4 : Bytes → Bytes
  /-- Whether a connection to an address and a port succeeds in time. -/
  probeTcp : Bytes → UInt16 → Bool

namespace Camera

def resolveNetdev (c : Camera) (now : Bytes) : Camera :=
  if now = [] then c
  else
    let c :=
      if c.netdevFirstSeen = [] then { c with netdevFirstSeen := now }
      else if c.netdevFirstSeen ≠ now then { c with netdevRenamed := true }
      else c
    { c with netdev := now }

def advanceReadiness (c : Camera) (probePort : UInt16) (env : Snapshot) : Camera :=
  if !env.present c.sysfsName then { c with readiness := .absent }
  else
    let c := { c with readiness := .usbPresent }
    let c := c.resolveNetdev (env.findNetdev c.sysfsName)
    if c.netdev = [] then c
    else
      let c := { c with linkState := env.linkState c.netdev, readiness := .netdevBound }
      let c := { c with hostIp := env.hostIpv4 c.netdev }
      if c.hostIp = [] then c
      else
        let c := { c with readiness := .hostAddressed }
        if probePort = 0 ∨ c.ip = [] then c
        else if env.probeTcp c.ip probePort then { c with readiness := .l3Ready }
        else c

end Camera

/-! ## Devices -/

structure DeviceDescriptor where
  idVendor : UInt16
  idProduct : UInt16
  iSerialNumber : UInt8

/-- What libusb and sysfs tell of a device. -/
structure Device where
  descriptor : Option DeviceDescriptor
  bus : UInt8
  address : UInt8
  ports : List UInt8
  /-- The classes of the settings of each interface of the active configuration. -/
  interfaces : List (List UInt8)
  /-- The serial number read from the device, empty if it cannot be opened or read. -/
  serialDescriptor : Bytes
  /-- The attribute `serial` in sysfs. -/
  serialAttribute : Bytes

def isCdcClass (cls : UInt8) : Bool := cls == 0x02 || cls == 0x0a || cls == 0xef

def buildIdentity (dev : Device) : Camera where
  vid := (dev.descriptor.map DeviceDescriptor.idVendor).getD 0
  pid := (dev.descriptor.map DeviceDescriptor.idProduct).getD 0
  bus := dev.bus
  address := dev.address
  ports := dev.ports
  sysfsName := sysfsName dev.bus dev.ports

/-- `build` of a device that is readable. -/
def build (dev : Device) (env : Snapshot) : Camera :=
  let c := buildIdentity dev
  let c := { c with hasCdcInterface := dev.interfaces.any fun itf => itf.any isCdcClass }
  let c :=
    if (dev.descriptor.map DeviceDescriptor.iSerialNumber).getD 0 ≠ 0 ∧
        dev.serialDescriptor ≠ [] then
      { c with serial := dev.serialDescriptor, serialSource := .descriptor }
    else if dev.serialAttribute ≠ [] then
      { c with serial := dev.serialAttribute, serialSource := .sysfs }
    else c
  let c :=
    match deriveIp c.serial with
    | some ip => { c with ip := ip }
    | none => c
  c.advanceReadiness 0 env

/-! ## Records -/

inductive EventKind
  | sentinel
  | update
  | left
  deriving DecidableEq, Repr

def EventKind.value : EventKind → UInt8
  | sentinel => 0
  | update => 1
  | left => 2

structure CameraRecord where
  vid : UInt16
  pid : UInt16
  bus : UInt8
  address : UInt8
  sysfsName : Bytes
  serial : Bytes
  serialSource : UInt8
  ip : Bytes
  netdev : Bytes
  netdevFirstSeen : Bytes
  netdevRenamed : Bool
  linkState : Bytes
  hostIp : Bytes
  readiness : UInt8
  hasCdc : Bool
  elapsedMs : UInt32
  deriving DecidableEq

def toRecord (c : Camera) (elapsedMs : UInt32) : CameraRecord where
  vid := c.vid
  pid := c.pid
  bus := c.bus
  address := c.address
  sysfsName := c.sysfsName
  serial := c.serial
  serialSource := c.serialSource.value
  ip := c.ip
  netdev := c.netdev
  netdevFirstSeen := c.netdevFirstSeen
  netdevRenamed := c.netdevRenamed
  linkState := c.linkState
  hostIp := c.hostIp
  readiness := c.readiness.value
  hasCdc := c.hasCdcInterface
  elapsedMs := elapsedMs

/-! ## The bridge -/

structure Pending where
  cam : Camera
  /-- In nanoseconds. -/
  arrived : Nat
  last : Readiness

def kGoProVid : UInt16 := 0x2672

structure BridgeContext where
  vid : UInt16
  timeoutMs : Int32 := 10000
  rescan : Bool := false
  pending : List Pending := []
  /-- The arrival cache of the discovery, by `sysfsName`. -/
  cache : AList fun _ : Bytes => Camera := ∅

inductive BridgeEvent
  /-- The hotplug callback begins to work on a camera. -/
  | hotplug (cam : Camera) (arrived : Bool)
  | post (kind : EventKind) (record : Option CameraRecord)
  /-- `worker_loop` takes an entry out of `pending`. -/
  | erased (p : Pending)

def msSince (arrived now : Nat) : UInt32 := UInt32.ofNat ((now - arrived) / 1000000)

namespace BridgeContext

/-- `gopro_discovery_create`. -/
def create (vid : UInt16) : BridgeContext where
  vid := if vid = 0 then kGoProVid else vid

/-- The trampoline and the callback given to `watch`.  Of a device that left only the
identity is read, and what the cache knows of it. -/
def hotplug (ctx : BridgeContext) (dev : Device) (arrived : Bool) (env : Snapshot)
    (now : Nat) : BridgeContext × List BridgeEvent :=
  if arrived then
    let c := build dev env
    ({ ctx with
        cache := ctx.cache.insert c.sysfsName c
        pending := ctx.pending ++ [⟨c, now, c.readiness⟩] },
      [.hotplug c true, .post .update (some (toRecord c 0))])
  else
    let c := buildIdentity dev
    let c :=
      match ctx.cache.lookup c.sysfsName with
      | some prev =>
          { c with
            vid := prev.vid, pid := prev.pid, serial := prev.serial
            serialSource := prev.serialSource, ip := prev.ip, netdev := prev.netdev
            hasCdcInterface := prev.hasCdcInterface }
      | none => c
    ({ ctx with
        cache := ctx.cache.erase c.sysfsName
        pending := ctx.pending.filter fun p => p.cam.sysfsName ≠ c.sysfsName },
      [.hotplug c false, .post .left (some (toRecord c 0))])

/-- `enumerate`: the cameras, and the cache with them. -/
def enumerate (ctx : BridgeContext) (devices : List (Device × Snapshot)) :
    BridgeContext × List Camera :=
  let cameras := devices.filterMap fun dev =>
    match dev.1.descriptor with
    | some desc => if desc.idVendor = ctx.vid then some (build dev.1 dev.2) else none
    | none => none
  ({ ctx with cache := cameras.foldl (fun cache c => cache.insert c.sysfsName c) ctx.cache },
    cameras)

/-- The body of the loop over `pending`, with the entry if it stays. -/
def settle (budget : Int32) (p : Pending) (env : Snapshot) (now : Nat) :
    Option Pending × List BridgeEvent :=
  let before := p.last
  let cam := p.cam.advanceReadiness 8080 env
  let after := cam.readiness
  let elapsed := msSince p.arrived now
  let p := { p with cam := cam, last := after }
  let update := .post .update (some (toRecord cam elapsed))
  let changed := if after ≠ before then [update] else []
  if after = .l3Ready ∨ after = .absent ∨ elapsed > budget.toUInt32 then
    let final := if after = before ∧ after ≠ .l3Ready then [update] else []
    (none, changed ++ final ++ [.erased p])
  else (some p, changed)

/-- One pass of `worker_loop`, behind `pump`: what the devices are, if they are
enumerated, and what the probes of the `i`-th entry answer and when. -/
def pass (ctx : BridgeContext) (devices : List (Device × Snapshot))
    (answers : Nat → Snapshot × Nat) : BridgeContext × List BridgeEvent :=
  let scanned :=
    if ctx.rescan then
      let r := enumerate { ctx with rescan := false } devices
      (r.1, r.2.map fun c => BridgeEvent.post .update (some (toRecord c 0)))
    else (ctx, [])
  let budget := ctx.timeoutMs
  let settled := ctx.pending.mapIdx fun i p => settle budget p (answers i).1 (answers i).2
  ({ scanned.1 with pending := settled.filterMap Prod.fst },
    scanned.2 ++ settled.flatMap Prod.snd)

end BridgeContext

/-! ## Runs -/

inductive BridgeOp
  /-- `worker_loop` begins. -/
  | start
  | hotplug (dev : Device) (arrived : Bool) (env : Snapshot) (now : Nat)
  /-- `gopro_discovery_rescan`. -/
  | rescan
  /-- `gopro_discovery_set_timeout`. -/
  | setTimeout (timeoutMs : Int32)
  | pass (devices : List (Device × Snapshot)) (answers : Nat → Snapshot × Nat)

namespace BridgeContext

def next (ctx : BridgeContext) : BridgeOp → BridgeContext × List BridgeEvent
  | .start => (ctx, [.post .sentinel none])
  | .hotplug dev arrived env now => ctx.hotplug dev arrived env now
  | .rescan => ({ ctx with rescan := true }, [])
  | .setTimeout timeoutMs => ({ ctx with timeoutMs := timeoutMs }, [])
  | .pass devices answers => ctx.pass devices answers

end BridgeContext

end Usb

end GoproNative
