/-
# Installing the HIDv5 handlers

`plugin/source/main.c`: the patchers that `main` hands to the system
(`patch_hid_discovery_call`, `patch_getversion_handler`; `patch_v4_dispatch` of
`hidv4.h`), the installers of the handlers (`supervisor_patch_...`, `install_...`),
`hid_discovery_bootstrap` and `getversion_handler`.

Eleven words of the system module are replaced by branches into the plugin:

| words | original | replaced by | when |
| --- | --- | --- | --- |
| the ioctl and close calls | `0xebffff74`, `0xebffff61` | `patch_v4_dispatch` | start |
| the call of GETDEVICECHANGE | `0xeb000217` | `patch_hid_discovery_call` | start |
| the entry of GETVERSION | `0xe1a0c00d` | `patch_getversion_handler` | start |
| the entries of seven other handlers | `0xe1a0c00d` | the installers | first requests |

A word is replaced only if it holds what it should, and read back afterwards.  Whether
a store takes is not up to the code, so it is an argument of every call.
-/

import VirtualPortal.Hidv5.Portal
import VirtualPortal.Lib.Run
import VirtualPortal.Tools.ArmBranch

namespace VirtualPortal

/-- The entry points of the system module that the plugin takes over. -/
inductive Entry where
  | ioctl (h : Hidv5Handler)
  | controlTransfer
  | interruptTransfer
deriving DecidableEq

/-- The words that are replaced. -/
inductive Hook where
  | entry (e : Entry)
  | discoveryCall
  | ioctlCall
  | closeCall
deriving DecidableEq

/-- `HID_..._HANDLER` -/
def Entry.site : Entry → U32
  | .ioctl .getversion => 0x13658fb4
  | .ioctl .getdevicechange => 0x136589e4
  | .ioctl .getdevparams => 0x13658d40
  | .ioctl .attachfinish => 0x13658cc0
  | .ioctl .suspendResume => 0x13658ee4
  | .ioctl .cancelEndpoint => 0x13659588
  | .controlTransfer => 0x13659300
  | .interruptTransfer => 0x13659494

/-- The address of a word; `HID_DISCOVERY_CALL`, `V4_IOCTL_CALL` and `V4_CLOSE_CALL`. -/
def Hook.site : Hook → U32
  | .entry e => e.site
  | .discoveryCall => 0x13658180
  | .ioctlCall => 0x13658330
  | .closeCall => 0x1365834c

/-- What the word holds in the module; `HANDLER_PROLOGUE` and `DISCOVERY_CALL_ORIGINAL`. -/
def Hook.original : Hook → U32
  | .entry _ => 0xe1a0c00d
  | .discoveryCall => 0xeb000217
  | .ioctlCall => 0xebffff74
  | .closeCall => 0xebffff61

/-- The functions of the plugin that the words are to lead to: in reach of a branch, and
not what the words of the module lead to. -/
structure Layout where
  target : Hook → U32
  aligned : ∀ k, 4 ∣ (target k).toNat
  near : ∀ k, -2 ^ 25 ≤ (target k - (k.site + 8)).toInt ∧ (target k - (k.site + 8)).toInt < 2 ^ 25
  outside : ∀ k, decodeArmBranch k.site.toNat k.original.toNat ≠ some ((target k).toNat : ℤ)

/-- The word that is written: a branch at an entry, a call where there was a call. -/
def Layout.word (L : Layout) : Hook → U32
  | .entry e => makeArmBranch e.site (L.target (.entry e))
  | .discoveryCall => makeArmCall (Hook.site .discoveryCall) (L.target .discoveryCall)
  | .ioctlCall => makeArmCall (Hook.site .ioctlCall) (L.target .ioctlCall)
  | .closeCall => makeArmCall (Hook.site .closeCall) (L.target .closeCall)

/-- `PATCH_NOT_EVALUATED` -/
def patchNotEvaluated : U8 := 0xee

/-- `PATCH_PREIMAGE_MISMATCH` -/
def patchPreimageMismatch : U8 := 0xff

/-- `PATCH_POSTIMAGE_MISMATCH` -/
def patchPostimageMismatch : U8 := 0xfe

/-- `PATCH_APPLIED` -/
def patchApplied : U8 := 0

/-- The memory of the module, the access permissions, the results of the patches and the
variables of the handlers. -/
structure Plugin where
  words : U32 → U32
  permissions : U32
  patchResult : Entry → U8
  portal : Hidv5

/-- Whether the store of a word to an address takes. -/
abbrev Takes := U32 → U32 → Bool

namespace Plugin

/-- What `main` sets before the patchers run. -/
def start (words : U32 → U32) (permissions : U32) : Plugin :=
  ⟨words, permissions, fun _ => patchNotEvaluated, .zero⟩

section Patches

variable (L : Layout) (takes : Takes) (s : Plugin)

/-- `DCWrite32` -/
def dcWrite32 (a w : U32) : Plugin :=
  if takes a w then { s with words := Function.update s.words a w } else s

/-- Replace a word. -/
def replace (k : Hook) : Plugin := s.dcWrite32 takes k.site (L.word k)

def setResult (e : Entry) (r : U8) : Plugin :=
  { s with patchResult := Function.update s.patchResult e r }

/-! ### The patchers -/

/-- `patch_v4_dispatch` -/
def patchV4Dispatch : Int × Plugin :=
  if s.words (Hook.site .ioctlCall) ≠ Hook.original .ioctlCall ∨
      s.words (Hook.site .closeCall) ≠ Hook.original .closeCall then (-1, s)
  else
    let s := (s.replace L takes .ioctlCall).replace L takes .closeCall
    if s.words (Hook.site .ioctlCall) = L.word .ioctlCall ∧
        s.words (Hook.site .closeCall) = L.word .closeCall then (0, s)
    else
      (-1, (s.dcWrite32 takes (Hook.site .ioctlCall) (Hook.original .ioctlCall)).dcWrite32 takes
        (Hook.site .closeCall) (Hook.original .closeCall))

/-- `patch_hid_discovery_call` -/
def patchHidDiscoveryCall : Int × Plugin :=
  if s.words (Hook.site .discoveryCall) ≠ Hook.original .discoveryCall then (-1, s)
  else
    let s := s.replace L takes .discoveryCall
    (if s.words (Hook.site .discoveryCall) = L.word .discoveryCall then 0 else -1, s)

/-- `patch_getversion_handler` -/
def patchGetversionHandler : Int × Plugin :=
  if s.words (Entry.site (.ioctl .getversion)) ≠ Hook.original (.entry (.ioctl .getversion)) then
    (-1, s)
  else (0, s.replace L takes (.entry (.ioctl .getversion)))

/-! ### The installers -/

/-- The entries of `supervisor_patch_lifecycle`. -/
def attach : Entry := .ioctl .attachfinish

def suspend : Entry := .ioctl .suspendResume

/-- `Perms_Read` and `Perms_Write` around a patch. -/
def withAccess (f : Plugin → Int × Plugin) : Int × Plugin :=
  let out := f { s with permissions := 0xffffffff }
  (out.1, { out.2 with permissions := s.permissions })

/-- What `supervisor_patch_...` does between them, for one entry. -/
def patchEntry (e : Entry) : Int × Plugin :=
  if s.words e.site ≠ Hook.original (.entry e) then (-1, s.setResult e patchPreimageMismatch)
  else
    let s := s.replace L takes (.entry e)
    if s.words e.site ≠ L.word (.entry e) then (-1, s.setResult e patchPostimageMismatch)
    else (0, s.setResult e patchApplied)

/-- What `supervisor_patch_lifecycle` does between them: both words are checked first, and
both are written before either is read back. -/
def patchLifecycle : Int × Plugin :=
  if s.words attach.site ≠ Hook.original (.entry attach) then
    (-1, s.setResult attach patchPreimageMismatch)
  else if s.words suspend.site ≠ Hook.original (.entry suspend) then
    (-1, s.setResult suspend patchPreimageMismatch)
  else
    let s := (s.replace L takes (.entry attach)).replace L takes (.entry suspend)
    if s.words attach.site ≠ L.word (.entry attach) then
      (-1, s.setResult attach patchPostimageMismatch)
    else
      let s := s.setResult attach patchApplied
      if s.words suspend.site ≠ L.word (.entry suspend) then
        (-1, s.setResult suspend patchPostimageMismatch)
      else (0, s.setResult suspend patchApplied)

/-- `supervisor_patch_getdevicechange` -/
def supervisorPatchGetdevicechange : Int × Plugin :=
  s.withAccess fun s => s.patchEntry L takes (.ioctl .getdevicechange)

/-- `supervisor_patch_getdevparams` -/
def supervisorPatchGetdevparams : Int × Plugin :=
  s.withAccess fun s => s.patchEntry L takes (.ioctl .getdevparams)

/-- `supervisor_patch_cancel_endpoint` -/
def supervisorPatchCancelEndpoint : Int × Plugin :=
  s.withAccess fun s => s.patchEntry L takes (.ioctl .cancelEndpoint)

/-- `supervisor_patch_control_transfer` -/
def supervisorPatchControlTransfer : Int × Plugin :=
  s.withAccess fun s => s.patchEntry L takes .controlTransfer

/-- `supervisor_patch_interrupt_transfer` -/
def supervisorPatchInterruptTransfer : Int × Plugin :=
  s.withAccess fun s => s.patchEntry L takes .interruptTransfer

/-- `supervisor_patch_lifecycle` -/
def supervisorPatchLifecycle : Int × Plugin := s.withAccess fun s => s.patchLifecycle L takes

/-- `install_getdevicechange_patch` -/
def installGetdevicechangePatch : Int × Plugin :=
  if s.patchResult (.ioctl .getdevicechange) = patchApplied then (0, s)
  else s.supervisorPatchGetdevicechange L takes

/-- `install_getdevparams_patch` -/
def installGetdevparamsPatch : Int × Plugin :=
  if s.patchResult (.ioctl .getdevparams) = patchApplied then (0, s)
  else s.supervisorPatchGetdevparams L takes

/-- `install_lifecycle_patches` -/
def installLifecyclePatches : Int × Plugin :=
  if s.patchResult attach = patchApplied ∧ s.patchResult suspend = patchApplied then (0, s)
  else s.supervisorPatchLifecycle L takes

/-- `install_cancel_endpoint_patch` -/
def installCancelEndpointPatch : Int × Plugin :=
  if s.patchResult (.ioctl .cancelEndpoint) = patchApplied then (0, s)
  else s.supervisorPatchCancelEndpoint L takes

/-- `install_control_transfer_patch` -/
def installControlTransferPatch : Int × Plugin :=
  if s.patchResult .controlTransfer = patchApplied then (0, s)
  else s.supervisorPatchControlTransfer L takes

/-- `install_interrupt_transfer_patch` -/
def installInterruptTransferPatch : Int × Plugin :=
  if s.patchResult .interruptTransfer = patchApplied then (0, s)
  else s.supervisorPatchInterruptTransfer L takes

/-- The installers in the order in which they are called. -/
def installers : List (Plugin → Int × Plugin) :=
  [fun s => s.installGetdevicechangePatch L takes, fun s => s.installGetdevparamsPatch L takes,
    fun s => s.installLifecyclePatches L takes, fun s => s.installCancelEndpointPatch L takes,
    fun s => s.installControlTransferPatch L takes,
    fun s => s.installInterruptTransferPatch L takes]

/-- Installers up to the first that fails. -/
def installUntil : List (Plugin → Int × Plugin) → Plugin → Bool × Plugin
  | [], s => (true, s)
  | f :: fs, s => if (f s).1 < 0 then (false, (f s).2) else installUntil fs (f s).2

/-- Installers whatever they return. -/
def installAll : List (Plugin → Int × Plugin) → Plugin → Plugin
  | [], s => s
  | f :: fs, s => installAll fs (f s).2

end Patches

/-! ### Requests -/

/-- What a request makes the plugin do, or that it stays with the module. -/
inductive Effect where
  | portal (e : HandlerEffect)
  | stock
deriving DecidableEq

section Requests

variable (L : Layout) (takes : Takes) (s : Plugin)

/-- Run a handler on the variables they share. -/
def serve (out : Hidv5 × List HandlerEffect) : Plugin × List Effect :=
  ({ s with portal := out.1 }, out.2.map .portal)

/-- `hid_discovery_bootstrap` -/
def hidDiscoveryBootstrap (mem : Mem) (message : Option IpcMessage) : Plugin × List Effect :=
  let (complete, s) := installUntil (installers L takes) s
  if complete then s.serve (s.portal.getdevicechangeHandler mem message)
  else (s, if message.isSome then [.portal (.ack (-4))] else [])

/-- `getversion_handler`; a request that it accepts installs the handlers. -/
def getversionHandler (mem : Mem) (m : IpcMessage) : Plugin × List Effect :=
  let s := if Hidv5Handler.getversion.accepts mem m then installAll (installers L takes) s else s
  (s, (Hidv5.getversionHandler mem m).map .portal)

/-- The word at an address leads into the plugin, to the function for the hook. -/
def Reaches (k : Hook) : Prop :=
  decodeArmBranch k.site.toNat (s.words k.site).toNat = some ((L.target k).toNat : ℤ)

instance (k : Hook) : Decidable (s.Reaches L k) := inferInstanceAs (Decidable (_ = _))

/-- A request of the host: GETDEVICECHANGE goes through the discovery call, which leads to
the entry of its handler, the other commands to the entries of theirs. -/
inductive Request where
  | discovery (message : Option IpcMessage)
  | ioctl (h : Hidv5Handler) (hne : h ≠ .getdevicechange) (m : IpcMessage)
  | controlTransfer (m : IoctlvMessage)
  | interruptTransfer (m : IoctlvMessage)

/-- What the word at the entry, or the discovery call, makes of a request. -/
def request (mem : Mem) : Request → Plugin × List Effect
  | .discovery message =>
      if s.Reaches L .discoveryCall then s.hidDiscoveryBootstrap L takes mem message
      else if s.words (Hook.site .discoveryCall) = Hook.original .discoveryCall ∧
          s.Reaches L (.entry (.ioctl .getdevicechange)) then
        s.serve (s.portal.getdevicechangeHandler mem message)
      else (s, [.stock])
  | .ioctl h _ m =>
      if s.Reaches L (.entry (.ioctl h)) then
        if h = .getversion then s.getversionHandler L takes mem m
        else s.serve (s.portal.handle mem m h)
      else (s, [.stock])
  | .controlTransfer m =>
      if s.Reaches L (.entry .controlTransfer) then s.serve (s.portal.controlTransferHandler mem m)
      else (s, [.stock])
  | .interruptTransfer m =>
      if s.Reaches L (.entry .interruptTransfer) then
        s.serve (s.portal.interruptTransferHandler mem m)
      else (s, [.stock])

/-- What happens to the plugin: a patcher runs, or a request comes. -/
inductive Event where
  | patchV4Dispatch
  | patchHidDiscoveryCall
  | patchGetversionHandler
  | request (mem : Mem) (r : Request)

/-- One event, with the stores that take during it. -/
def step (e : Event × Takes) : Plugin × List Effect :=
  match e.1 with
  | .patchV4Dispatch => ((s.patchV4Dispatch L e.2).2, [])
  | .patchHidDiscoveryCall => ((s.patchHidDiscoveryCall L e.2).2, [])
  | .patchGetversionHandler => ((s.patchGetversionHandler L e.2).2, [])
  | .request mem r => s.request L e.2 mem r

end Requests

end Plugin
end VirtualPortal
