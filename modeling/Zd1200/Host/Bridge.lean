import Mathlib.Logic.Function.Basic
import Zd1200.Lib.Script

/-!
# The Bridge Helper

The script `zd1200-bridge`, which puts the controller on a network of the
host, and what its `ip` commands do to the links of the host.

In the profile `dedicated` the script makes a bridge of its own and attaches
an adapter to it. In the profile `existing-bridge` it only adds a TAP device
to a bridge of the operator. The script refuses an adapter or a bridge of its
own that it finds in `ip route show default`.

What it finds there is a parameter, as is what it finds in the list of TAP
devices: whether the pattern that `grep` makes of a name matches. A pattern is
not a name, since a name may have characters that are special in a pattern. And
`ip route show default` shows the routes of IPv4 only.

The MAC of an adapter is compared in small letters. The watching loop is not
modelled, and messages are left out.

## Main definitions

* `HostNet`: The links and default routes of the host, and what was done.
* `HostNet.ip`: An `ip` command.
* `BridgeConfig`: The settings of the script.
* `GrepPatterns`: What `grep` finds of a name.
* `bridgeCommand`: The commands of the script.
-/

namespace Zd1200

inductive LinkKind
  | bridge
  | tap
  | other
  deriving DecidableEq, Repr

/-- A network interface. -/
structure NetLink where
  kind : LinkKind
  master : Option String
  up : Bool
  address : String
  deriving DecidableEq, Repr

/-- A default route of either protocol. -/
structure DefaultRoute where
  inet6 : Bool
  dev : String
  deriving DecidableEq, Repr

/-- What an `ip` command does to a device. -/
inductive IpOp
  | addBridge
  | addTap
  | bridgeOptions
  | disableIpv6
  | flush
  | down
  | up
  | enslave (bridge : String)
  | detach
  | promisc (on : Bool)
  | delTap
  | delBridge
  deriving DecidableEq, Repr

/-- The network of the host, and what has been done to it. -/
structure HostNet where
  links : String → Option NetLink
  defaults : List DefaultRoute
  done : List (IpOp × String)

namespace HostNet

/-- A change of one link. -/
def setLink (h : HostNet) (dev : String) (link : Option NetLink) : HostNet :=
  { h with links := Function.update h.links dev link }

/-- Routes through a device are dropped. -/
def dropRoutes (h : HostNet) (dev : String) (lost : DefaultRoute → Bool) : HostNet :=
  { h with defaults := h.defaults.filter fun route => !(route.dev = dev && lost route) }

/-- What is left when a device is deleted. -/
def delete (h : HostNet) (dev : String) : HostNet :=
  { h with
    links := fun name =>
      if name = dev then none
      else (h.links name).map fun link =>
        if link.master = some dev then { link with master := none } else link
    defaults := h.defaults.filter fun route => route.dev ≠ dev }

/-- The effect of an `ip` command, if it succeeds. -/
def effect (op : IpOp) (dev : String) (h : HostNet) : Option HostNet :=
  match op, h.links dev with
  | .addBridge, none => some (h.setLink dev (some ⟨.bridge, none, false, ""⟩))
  | .addTap, none => some (h.setLink dev (some ⟨.tap, none, false, ""⟩))
  -- A name can be given once, and everything else needs the device.
  | .addBridge, some _ => none
  | .addTap, some _ => none
  | _, none => none
  | .bridgeOptions, some link => if link.kind = .bridge then some h else none
  | .disableIpv6, some _ => some (h.dropRoutes dev fun route => route.inet6)
  -- A device without addresses has no IPv4 routes.
  | .flush, some _ => some (h.dropRoutes dev fun route => !route.inet6)
  | .down, some link =>
      some ((h.setLink dev (some { link with up := false })).dropRoutes dev fun _ => true)
  | .up, some link => some (h.setLink dev (some { link with up := true }))
  | .enslave bridge, some link =>
      -- A bridge cannot be put below another one.
      match h.links bridge with
      | some target =>
          if target.kind = .bridge ∧ link.kind ≠ .bridge then
            some (h.setLink dev (some { link with master := some bridge }))
          else none
      | none => none
  | .detach, some link => some (h.setLink dev (some { link with master := none }))
  | .promisc _, some _ => some h
  | .delTap, some link => if link.kind = .tap then some (h.delete dev) else none
  | .delBridge, some link => if link.kind = .bridge then some (h.delete dev) else none

/-- An `ip` command. -/
def ip (op : IpOp) (dev : String) (h : HostNet) : Option HostNet :=
  (h.effect op dev).map fun h' => { h' with done := h.done ++ [(op, dev)] }

/-- `[ -e "/sys/class/net/$dev" ]`. -/
def exists? (h : HostNet) (dev : String) : Bool := (h.links dev).isSome

end HostNet

/-- `ZD_NETWORK_PROFILE`. -/
inductive NetProfile
  | dedicated
  | existingBridge
  | other
  deriving DecidableEq, Repr

/-- The settings of the script. -/
structure BridgeConfig where
  profile : NetProfile
  usbIf : String
  usbMac : String
  bridgeIf : String
  tapIf : String

/-- The patterns that are made of a name: `(^| )dev NAME( |$)` matches a route
    through a device, and `^NAME:.*tap` the line of that TAP device. -/
structure GrepPatterns where
  route : String → String → Bool
  tap : String → Bool

section Script

variable (finds : GrepPatterns) (cfg : BridgeConfig)

/-- `ip route show default | grep -qE "(^| )dev NAME( |$)"`. -/
def showsDefault (name : String) (h : HostNet) : Bool :=
  h.defaults.any fun route => !route.inet6 && finds.route name route.dev

/-- `validate_dedicated_adapter`. -/
def adapterAccepted (h : HostNet) : Bool :=
  match h.links cfg.usbIf with
  | none => false
  | some link =>
      (cfg.usbMac = "" || link.address.toLower = cfg.usbMac.toLower) &&
        !showsDefault finds cfg.usbIf h &&
          !(h.exists? cfg.bridgeIf && showsDefault finds cfg.bridgeIf h)

/-- The name is that of a bridge. -/
def isBridge (name : String) (h : HostNet) : Bool :=
  match h.links name with
  | none => false
  | some link => link.kind = .bridge

/-- `ip -o link show dev "$bridge_if" | grep -q '<[^>]*UP[^>]*>'`. -/
def isUp (name : String) (h : HostNet) : Bool :=
  match h.links name with
  | none => false
  | some link => link.up

/-- `validate_profile`. -/
def validateProfile : Script HostNet :=
  match cfg.profile with
  | .dedicated =>
      .seq (.check fun _ => cfg.usbIf ≠ "") (.check (adapterAccepted finds cfg))
  | .existingBridge => .seq (.check (isBridge cfg.bridgeIf)) (.check (isUp cfg.bridgeIf))
  | .other => .check fun _ => false

/-- `disable_ip`. -/
def disableIp (dev : String) : Script HostNet :=
  .seq (.attempt (HostNet.ip .disableIpv6 dev)) (.attempt (HostNet.ip .flush dev))

/-- `attach_usb`. -/
def attachUsb (interface : String) : Script HostNet :=
  if interface ≠ cfg.usbIf then .skip
  else
    .seq (.check (adapterAccepted finds cfg))
      (.inOrder [disableIp interface, .cmd (HostNet.ip .down interface),
        .cmd (HostNet.ip (.enslave cfg.bridgeIf) interface),
        .cmd (HostNet.ip (.promisc true) interface), .cmd (HostNet.ip .up interface)])

/-- `ip tuntap show dev "$tap_if" | grep -q "^${tap_if}:.*tap"`. -/
def showsTap (h : HostNet) : Bool :=
  match h.links cfg.tapIf with
  | none => false
  | some link => link.kind = .tap && finds.tap cfg.tapIf

/-- The TAP device has no master or it is the bridge. -/
def tapIsFree (h : HostNet) : Bool :=
  match h.links cfg.tapIf with
  | none => true
  | some link => link.master = none || link.master = some cfg.bridgeIf

/-- The bridge of the dedicated profile, without addresses. -/
def setUpBridge : Script HostNet :=
  .seq (.ifThen (fun h => !h.exists? cfg.bridgeIf) (.cmd (HostNet.ip .addBridge cfg.bridgeIf)))
    (.seq (.check (isBridge cfg.bridgeIf))
      (.inOrder [.cmd (HostNet.ip .bridgeOptions cfg.bridgeIf), disableIp cfg.bridgeIf]))

/-- The TAP device, if it is one. -/
def checkTap : Script HostNet :=
  .seq (.ifThen (fun h => !h.exists? cfg.tapIf) (.cmd (HostNet.ip .addTap cfg.tapIf)))
    (.seq (.check (showsTap finds cfg)) (.check (tapIsFree cfg)))

/-- The TAP device joins the bridge. -/
def joinTap : Script HostNet :=
  .inOrder [disableIp cfg.tapIf, .cmd (HostNet.ip (.enslave cfg.bridgeIf) cfg.tapIf),
    (if cfg.profile = .dedicated then .cmd (HostNet.ip .up cfg.bridgeIf) else .skip),
    .cmd (HostNet.ip .up cfg.tapIf)]

/-- `start_bridge`. -/
def startBridge : Script HostNet :=
  .seq (validateProfile finds cfg)
    (.seq (if cfg.profile = .dedicated then setUpBridge cfg else .skip)
      -- The adapter is attached last, after a second look at the default route.
      (.seq (checkTap finds cfg)
        (.seq (joinTap cfg)
          (if cfg.profile = .dedicated then attachUsb finds cfg cfg.usbIf else .skip))))

/-- The adapter is released. -/
def releaseUsb : Script HostNet :=
  .ifThen (fun h => cfg.profile = .dedicated && cfg.usbIf ≠ "" && h.exists? cfg.usbIf)
    (.inOrder [.attempt (HostNet.ip .down cfg.usbIf), .attempt (HostNet.ip .detach cfg.usbIf),
      .attempt (HostNet.ip (.promisc false) cfg.usbIf), .attempt (HostNet.ip .flush cfg.usbIf)])

/-- The TAP device is deleted. -/
def removeTap : Script HostNet :=
  .ifThen (fun h => h.exists? cfg.tapIf)
    -- Whether it is a TAP device is left to `ip`.
    (.inOrder [.attempt (HostNet.ip .down cfg.tapIf), .attempt (HostNet.ip .detach cfg.tapIf),
      .attempt (HostNet.ip .delTap cfg.tapIf)])

/-- The bridge of the dedicated profile is deleted. -/
def removeBridge : Script HostNet :=
  .ifThen (fun h => cfg.profile = .dedicated && h.exists? cfg.bridgeIf)
    (.inOrder [.attempt (HostNet.ip .down cfg.bridgeIf),
      .attempt (HostNet.ip .delBridge cfg.bridgeIf)])

/-- `stop_bridge`. -/
def stopBridge : Script HostNet := .seq (releaseUsb cfg) (.seq (removeTap cfg) (removeBridge cfg))

/-- The commands of the script. -/
inductive BridgeCommand
  | start
  | check
  | attach (interface : String)
  | stop
  | restart
  deriving DecidableEq, Repr

def bridgeCommand : BridgeCommand → Script HostNet
  | .start => startBridge finds cfg
  | .check => validateProfile finds cfg
  | .attach interface =>
      if cfg.profile = .dedicated then
        attachUsb finds cfg (if interface = "" then cfg.usbIf else interface)
      else .check fun _ => false
  | .stop => stopBridge cfg
  | .restart => .seq (stopBridge cfg) (startBridge finds cfg)

end Script

end Zd1200
