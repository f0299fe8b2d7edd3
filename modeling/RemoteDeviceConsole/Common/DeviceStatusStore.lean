import RemoteDeviceConsole.Protocol.StatusParser
import Mathlib.Data.Finmap

/-!
# The store of latest statuses

`DeviceStatusStore`: one status per device id, a new report replacing the old
one.  The hash map is a finite map; nothing in the server iterates over it.
-/

namespace RemoteDeviceConsole

/-- The latest status of every device. -/
structure DeviceStatusStore (D : Type) where
  statusesById : Finmap fun _ : Bytes => DeviceStatus D

namespace DeviceStatusStore

variable {D : Type}

def empty : DeviceStatusStore D := ⟨∅⟩

/-- `statuses_by_id_[status.device_id] = status`. -/
def upsert (store : DeviceStatusStore D) (status : DeviceStatus D) : DeviceStatusStore D :=
  ⟨store.statusesById.insert status.deviceId status⟩

def find (store : DeviceStatusStore D) (deviceId : Bytes) : Option (DeviceStatus D) :=
  store.statusesById.lookup deviceId

def size (store : DeviceStatusStore D) : ℕ := store.statusesById.keys.card

@[simp] theorem find_upsert (store : DeviceStatusStore D) (status : DeviceStatus D) :
    (store.upsert status).find status.deviceId = some status :=
  Finmap.lookup_insert _

theorem find_upsert_of_ne (store : DeviceStatusStore D) (status : DeviceStatus D)
    {deviceId : Bytes} (h : deviceId ≠ status.deviceId) :
    (store.upsert status).find deviceId = store.find deviceId :=
  Finmap.lookup_insert_of_ne _ h

theorem keys_upsert (store : DeviceStatusStore D) (status : DeviceStatus D) :
    (store.upsert status).statusesById.keys = insert status.deviceId store.statusesById.keys := by
  ext deviceId
  rw [upsert, Finmap.mem_keys, Finmap.mem_insert, Finset.mem_insert, Finmap.mem_keys]

/-- A store is what it finds. -/
theorem ext_find {store store' : DeviceStatusStore D}
    (h : ∀ deviceId, store.find deviceId = store'.find deviceId) : store = store' :=
  congrArg mk (Finmap.ext_lookup h)

end DeviceStatusStore
end RemoteDeviceConsole
