/-
  TokioEvents.Persistence.Tables

  The database of the persistence layer (`src/persistence/redb.rs`): five redb
  tables, and `serde_json` as the codec of the rows.

  A redb table is an ordered map; a table that was never opened for writing reads
  as empty, which is what every reader in the source makes of `TableDoesNotExist`.
-/

import TokioEvents.Event.Envelope

namespace TokioEvents

/-- A redb table: iteration is in ascending key order. -/
abbrev Table (K V : Type) [Ord K] := Std.ExtTreeMap K V compare

/-- Ids are compared as the numbers they are. -/
theorem lt_of_compare_eq_lt {a b : Uuid} (h : compare a b = .lt) : a < b := by
  change compareOfLessAndEq a b = .lt at h
  unfold compareOfLessAndEq at h
  split at h
  · assumption
  · split at h <;> cases h

/-- Keys `(timestamp_ms, event_id)` are ordered lexicographically. -/
instance : Ord (Nat × Uuid) := lexOrd

instance : Std.TransOrd (Nat × Uuid) := Std.instTransOrdProd

instance : Std.LawfulEqOrd (Nat × Uuid) := Std.instLawfulEqOrdProd

/-- A loop that removes the keys of a list. -/
theorem Table.getElem?_foldl_erase {K V α : Type} [Ord K] [Std.TransOrd K] [Std.LawfulEqOrd K]
    (key : α → K) (l : List α) (t : Table K V) (k : K) :
    (k ∈ l.map key → (l.foldl (fun t a => t.erase (key a)) t)[k]? = none) ∧
    (k ∉ l.map key → (l.foldl (fun t a => t.erase (key a)) t)[k]? = t[k]?) := by
  induction l generalizing t with
  | nil => simp
  | cons a l ih =>
    obtain ⟨hin, hout⟩ := ih (t.erase (key a))
    rw [List.foldl_cons, List.map_cons, List.mem_cons]
    by_cases hl : k ∈ l.map key
    · exact ⟨fun _ => hin hl, fun h => absurd (.inr hl) h⟩
    · rw [hout hl, Std.ExtTreeMap.getElem?_erase]
      by_cases ha : k = key a
      · exact ⟨fun _ => by simp [ha], fun h => absurd (.inl ha) h⟩
      · have hne : ¬ key a = k := fun h => ha h.symm
        exact ⟨fun h => absurd h (by simp [ha, hl]), fun _ => by simp [hne]⟩

/-- `PersistedEnvelope`. -/
structure PersistedEnvelope where
  typeName : String
  metadata : EventMetadata
  priority : EventPriority
  payload : Bytes
  deriving DecidableEq

/-- The committed contents of the database. -/
structure Db where
  /-- `EVENTS_TABLE` -/
  events : Table Uuid Bytes
  /-- `REFCOUNT_TABLE` -/
  refcount : Table Uuid Nat
  /-- `SCHEDULED_EVENTS_TABLE` -/
  scheduledEvents : Table (Nat × Uuid) Bytes
  /-- `PROCESSED_KEYS_TABLE` -/
  processedKeys : Table String Nat
  /-- `DLQ_TABLE` -/
  dlq : Table Uuid Bytes
  deriving DecidableEq

/-- A fresh database. -/
def Db.empty : Db := ⟨∅, ∅, ∅, ∅, ∅⟩

/-- `serde_json` on `PersistedEnvelope`: it may refuse a value, and it reads back
    what it has written. -/
structure SerdeJson where
  /-- `serde_json::to_vec` -/
  toVec : PersistedEnvelope → Except Error Bytes
  /-- `serde_json::from_slice`, errors erased as every caller does -/
  fromSlice : Bytes → Option PersistedEnvelope
  fromSlice_toVec : ∀ {persisted bytes}, toVec persisted = .ok bytes →
    fromSlice bytes = some persisted

/-- A codec for the envelopes of a list: each is written as its position, in unary,
    and everything else is refused. -/
def SerdeJson.ofList (known : List PersistedEnvelope) : SerdeJson where
  toVec persisted :=
    if persisted ∈ known then .ok (List.replicate (known.idxOf persisted) 0)
    else .error (.serializationError "unknown envelope")
  fromSlice bytes := known[bytes.length]?
  fromSlice_toVec := by
    intro persisted bytes h
    split at h
    · rename_i hmem
      cases h
      rw [List.length_replicate]
      exact List.getElem?_idxOf hmem
    · cases h

end TokioEvents
