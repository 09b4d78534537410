import Mathlib.Logic.Function.Basic
import ZephyrSamples.Lighting.State

/-!
# The settings in flash

`storage.c`: the twelve items under `ps/`, the eight groups `storage_work_handler` saves them in,
and `ps_set`, which the settings subsystem calls for each item it loads.
-/

namespace ZephyrSamples
namespace Lighting

/-- The items of `storage.c`, by their keys, in the order `ps_set` tests them. -/
inductive PsKey where
  | rc
  | gdtt
  | gpo
  | ld
  | td
  | dd
  | ll
  | llt
  | tlt
  | dlt
  | lr
  | tr
  deriving DecidableEq

def putLe16 (w : UInt16) : Buf := [w.toUInt8, (w >>> 8).toUInt8]

def putLe32 (w : UInt32) : Buf := putLe16 w.toUInt16 ++ putLe16 (w >>> 16).toUInt16

namespace PsKey

def all : List PsKey := [rc, gdtt, gpo, ld, td, dd, ll, llt, tlt, dlt, lr, tr]

/-- The key below `ps/`. -/
def name : PsKey → List Char
  | rc => ['r', 'c']
  | gdtt => ['g', 'd', 't', 't']
  | gpo => ['g', 'p', 'o']
  | ld => ['l', 'd']
  | td => ['t', 'd']
  | dd => ['d', 'd']
  | ll => ['l', 'l']
  | llt => ['l', 'l', 't']
  | tlt => ['t', 'l', 't']
  | dlt => ['d', 'l', 't']
  | lr => ['l', 'r']
  | tr => ['t', 'r']

/-- The bytes of the variable an item is saved from and loaded into. -/
def image : PsKey → Server → Buf
  | rc, s => [s.resetCounter]
  | gdtt, s => [s.tt]
  | gpo, s => [s.onpowerup]
  | ld, s => putLe16 s.light.dflt
  | td, s => putLe16 s.temp.dflt
  | dd, s => putLe16 s.duv.dflt.toUInt16
  | ll, s => putLe16 s.light.last
  | llt, s => putLe16 s.light.target
  | tlt, s => putLe16 s.temp.target
  | dlt, s => putLe16 s.duv.target.toUInt16
  | lr, s => putLe32 s.light.range
  | tr, s => putLe32 s.temp.range

/-- The variable of an item made of the given bytes. -/
def write : PsKey → Buf → Server → Server
  | rc, bytes, s => { s with resetCounter := (pullU8 bytes).1 }
  | gdtt, bytes, s => { s with tt := (pullU8 bytes).1 }
  | gpo, bytes, s => { s with onpowerup := (pullU8 bytes).1 }
  | ld, bytes, s => { s with light := { s.light with dflt := (pullLe16 bytes).1 } }
  | td, bytes, s => { s with temp := { s.temp with dflt := (pullLe16 bytes).1 } }
  | dd, bytes, s => { s with duv := { s.duv with dflt := (pullLe16 bytes).1.toInt16 } }
  | ll, bytes, s => { s with light := { s.light with last := (pullLe16 bytes).1 } }
  | llt, bytes, s => { s with light := { s.light with target := (pullLe16 bytes).1 } }
  | tlt, bytes, s => { s with temp := { s.temp with target := (pullLe16 bytes).1 } }
  | dlt, bytes, s => { s with duv := { s.duv with target := (pullLe16 bytes).1.toInt16 } }
  | lr, bytes, s => { s with light := { s.light with range := (pullLe32 bytes).1 } }
  | tr, bytes, s => { s with temp := { s.temp with range := (pullLe32 bytes).1 } }

/-- The `sizeof` of the variable. -/
def size (k : PsKey) (s : Server) : Nat := (k.image s).length

end PsKey

/-! ## Saving -/

namespace PsVariable

/-- The value of the enumerator. -/
def id : PsVariable → UInt8
  | resetCounter => 0x01
  | genDefTransTimeState => 0x02
  | genOnpowerupState => 0x03
  | defStates => 0x04
  | lightnessLastState => 0x05
  | lastTargetStates => 0x06
  | lightnessRange => 0x07
  | temperatureRange => 0x08

/-- The cases of the `switch` in `storage_work_handler`. -/
def ofId (id : UInt8) : Option PsVariable :=
  [resetCounter, genDefTransTimeState, genOnpowerupState, defStates, lightnessLastState,
    lastTargetStates, lightnessRange, temperatureRange].find? fun v => v.id == id

/-- The items of a group. -/
def keys : PsVariable → List PsKey
  | resetCounter => [.rc]
  | genDefTransTimeState => [.gdtt]
  | genOnpowerupState => [.gpo]
  | defStates => [.ld, .td, .dd]
  | lightnessLastState => [.ll]
  | lastTargetStates => [.llt, .tlt, .dlt]
  | lightnessRange => [.lr]
  | temperatureRange => [.tr]

@[simp] theorem ofId_id (v : PsVariable) : ofId v.id = some v := by cases v <;> rfl

theorem eq_id_of_ofId {id : UInt8} {v : PsVariable} (h : ofId id = some v) : id = v.id :=
  (beq_iff_eq.mp (List.find?_some (p := fun v : PsVariable => v.id == id) h)).symm

theorem eq_of_mem_keys {v w : PsVariable} {k : PsKey} (hv : k ∈ v.keys) (hw : k ∈ w.keys) :
    v = w := by
  cases v <;> cases w <;> first | rfl | (cases k <;> simp [keys] at hv hw)

end PsVariable

namespace Server

/-- The assignment `save_lightness_range` begins with. -/
def packLightnessRange (s : Server) : Server :=
  { s with light := { s.light with
      range := (s.light.rangeMax.toUInt32 <<< 16) ||| s.light.rangeMin.toUInt32 } }

/-- The assignment `save_temperature_range` begins with. -/
def packTemperatureRange (s : Server) : Server :=
  { s with temp := { s.temp with
      range := (s.temp.rangeMax.toUInt32 <<< 16) ||| s.temp.rangeMin.toUInt32 } }

end Server

/-- The memory of the node, `static u8_t storage_id` with the pending mark of `storage_work`, and
the contents of the flash. -/
structure Storage where
  memory : Server
  storageId : UInt8 := 0
  queued : Bool := false
  flash : PsKey → Option Buf := fun _ => none

namespace Storage

def settingsSaveOne (k : PsKey) (n : Storage) : Storage :=
  { n with flash := Function.update n.flash k (some (k.image n.memory)) }

/-- The item is queued if it is not already. -/
def saveOnFlash (id : UInt8) (n : Storage) : Storage := { n with storageId := id, queued := true }

def saveResetCounter (n : Storage) : Storage := n.settingsSaveOne .rc

def saveGenDefTransTimeState (n : Storage) : Storage := n.settingsSaveOne .gdtt

def saveGenOnpowerupState (n : Storage) : Storage :=
  let n := n.settingsSaveOne .gpo
  if n.memory.onpowerup = 0x02 then n.saveOnFlash PsVariable.lastTargetStates.id else n

def saveDefStates (n : Storage) : Storage :=
  ((n.settingsSaveOne .ld).settingsSaveOne .td).settingsSaveOne .dd

def saveLightnessLastState (n : Storage) : Storage := n.settingsSaveOne .ll

def saveLastTargetStates (n : Storage) : Storage :=
  ((n.settingsSaveOne .llt).settingsSaveOne .tlt).settingsSaveOne .dlt

def saveLightnessRange (n : Storage) : Storage :=
  { n with memory := n.memory.packLightnessRange }.settingsSaveOne .lr

def saveTemperatureRange (n : Storage) : Storage :=
  { n with memory := n.memory.packTemperatureRange }.settingsSaveOne .tr

/-- The `switch` of `storage_work_handler`, which has no default. -/
def storageWorkHandler (n : Storage) : Storage :=
  match PsVariable.ofId n.storageId with
  | some .resetCounter => n.saveResetCounter
  | some .genDefTransTimeState => n.saveGenDefTransTimeState
  | some .genOnpowerupState => n.saveGenOnpowerupState
  | some .defStates => n.saveDefStates
  | some .lightnessLastState => n.saveLightnessLastState
  | some .lastTargetStates => n.saveLastTargetStates
  | some .lightnessRange => n.saveLightnessRange
  | some .temperatureRange => n.saveTemperatureRange
  | none => n

end Storage

/-- The bytes an item has in flash after it is saved. -/
def PsKey.saved (k : PsKey) (s : Server) : Buf :=
  k.image s.packLightnessRange.packTemperatureRange

namespace Storage

/-- The handler saves the items of the group it finds in `storage_id`, and no others. -/
theorem storageWorkHandler_flash {n : Storage} {v : PsVariable} (hid : n.storageId = v.id)
    (k : PsKey) : n.storageWorkHandler.flash k =
      if k ∈ v.keys then some (k.saved n.memory) else n.flash k := by
  unfold storageWorkHandler
  rw [hid, PsVariable.ofId_id]
  cases v
  case genOnpowerupState =>
    dsimp only [saveGenOnpowerupState]
    split <;> cases k <;> rfl
  all_goals cases k <;> rfl

theorem storageWorkHandler_of_none {n : Storage} (hid : PsVariable.ofId n.storageId = none) :
    n.storageWorkHandler = n := by
  unfold storageWorkHandler
  rw [hid]

end Storage

/-! ## Loading -/

/-- `strncmp` on strings without their terminating NUL. -/
def strncmp : List Char → List Char → Nat → Int
  | _, _, 0 => 0
  | [], [], _ + 1 => 0
  | a :: _, [], _ + 1 => a.toNat
  | [], b :: _, _ + 1 => -b.toNat
  | a :: as, b :: bs, n + 1 => if a = b then strncmp as bs n else (a.toNat : Int) - b.toNat

def enoent : Int := 2

/-- `read_cb(cb_arg, &variable, sizeof(variable))`: its result, and the variable with the bytes it
copies in front. -/
def PsKey.read (k : PsKey) (readCb : Nat → Int × Buf) (s : Server) : Int × Server :=
  let (len, bytes) := readCb (k.size s)
  (len, k.write (bytes ++ (k.image s).drop bytes.length) s)

/-- `ps_set`.  All twelve comparisons are made for every key, so a key can be read into the
variables of several items. -/
def psSet (settingsNameNext : List Char → Nat × Option (List Char)) (key : List Char)
    (readCb : Nat → Int × Buf) (s : Server) : Int × Server :=
  let (keyLen, next) := settingsNameNext key
  match next with
  | some _ => (-enoent, s)
  | none =>
    let (len, s) := PsKey.all.foldl
      (fun out k => if strncmp key k.name keyLen = 0 then k.read readCb out.2 else out) (0, s)
    (if len < 0 then len else 0, s)

end Lighting
end ZephyrSamples
