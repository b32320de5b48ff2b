/-
# `DiagDataManager` — data items and their cache (`data/diag_data_manager.c`)

An item points at a buffer. `DiagData_ProcessCache` copies the buffers into the table, and from
then on they are read there, until they are written. `Spec` is what the calls do to a table of
values without a cache, and `cache_transparent` says that this is all there is to see.

The buffers are disjoint and nobody else writes them, so an item has the bytes of its buffer in it.
`validate_data_size` keeps them to the 64 bytes of `cache_data`, so a copy is a list as well.
-/
import Cant.Lib.FinMap
import Cant.Lib.Run

namespace Cant.Diagnostic.Data

open Keyed Run

inductive DataType where
  | uint8 | uint16 | uint32 | int8 | int16 | int32 | float | string

def validateDataSize (type : DataType) (size : Nat) : Bool :=
  match type with
  | .uint8 | .int8 => size = 1
  | .uint16 | .int16 => size = 2
  | .uint32 | .int32 | .float => size = 4
  | .string => 0 < size ∧ size ≤ 64

structure DiagDataItem where
  id : UInt16
  type : DataType
  data : List UInt8
  validator : Option (List UInt8 → Bool)

structure DiagDataConfig where
  maxItems : Nat
  enableValidation : Bool
  enableCaching : Bool
  cacheTimeoutMs : UInt32

structure DataItemEntry where
  item : DiagDataItem
  lastUpdateTime : UInt32
  isCached : Bool
  cacheData : List UInt8

namespace DataItemEntry

def id (e : DataItemEntry) : UInt16 := e.item.id

def data (e : DataItemEntry) : List UInt8 := e.item.data

def write (now : UInt32) (data : List UInt8) (e : DataItemEntry) : DataItemEntry :=
  { e with item := { e.item with data }, lastUpdateTime := now, isCached := false }

end DataItemEntry

structure DiagDataManager where
  config : DiagDataConfig
  items : List DataItemEntry
  lastCacheCheck : UInt32

/-- A call; an item that is null, or its buffer, is `none`. -/
inductive Call where
  | registerItem (item : Option DiagDataItem)
  | unregisterItem (id : UInt16)
  | readItem (id : UInt16)
  | writeItem (id : UInt16) (data : List UInt8)
  | processCache

namespace DiagDataManager

def init (config : DiagDataConfig) (now : UInt32) : Option DiagDataManager :=
  if config.maxItems > 256 then none else some ⟨config, [], now⟩

def find (s : DiagDataManager) (id : UInt16) : Option DataItemEntry :=
  lookup DataItemEntry.id id s.items

def registerItem (s : DiagDataManager) (now : UInt32) : Option DiagDataItem → DiagDataManager × Bool
  | none => (s, false)
  | some item =>
    if s.items.length ≥ s.config.maxItems then (s, false)
    else if (s.find item.id).isSome then (s, false)
    else if !validateDataSize item.type item.data.length then (s, false)
    else ({ s with items := s.items ++ [⟨item, now, false, []⟩] }, true)

def unregisterItem (s : DiagDataManager) (id : UInt16) : DiagDataManager × Bool :=
  ({ s with items := swapRemove DataItemEntry.id id s.items }, (s.find id).isSome)

def readItem (s : DiagDataManager) (id : UInt16) : Option (List UInt8) :=
  (s.find id).map fun e => if e.isCached && s.config.enableCaching then e.cacheData else e.data

def writeItem (s : DiagDataManager) (now : UInt32) (id : UInt16) (data : List UInt8) :
    DiagDataManager × Bool :=
  match s.find id with
  | none => (s, false)
  | some e =>
    if data.length ≠ e.data.length then (s, false)
    else if s.config.enableValidation ∧ e.item.validator.any (!· data) then (s, false)
    else ({ s with items := update DataItemEntry.id id (·.write now data) s.items }, true)

/-- The loop body of `DiagData_ProcessCache`. -/
def refresh (s : DiagDataManager) (now : UInt32) (e : DataItemEntry) : DataItemEntry :=
  if !e.isCached || now - e.lastUpdateTime ≥ s.config.cacheTimeoutMs then
    { e with cacheData := e.data, isCached := true, lastUpdateTime := now }
  else e

def processCache (s : DiagDataManager) (now : UInt32) : DiagDataManager :=
  if !s.config.enableCaching then s
  else if now - s.lastCacheCheck < 100 then s
  else { s with lastCacheCheck := now, items := s.items.map (s.refresh now) }

/-- A call at some reading of the clock: what it answers, and the bytes it returns. -/
def step (s : DiagDataManager) : UInt32 × Call → Option (DiagDataManager × (Bool × List UInt8))
  | (now, .registerItem item) => answered (s.registerItem now item)
  | (_, .unregisterItem id) => answered (s.unregisterItem id)
  | (_, .readItem id) => some (s, (s.readItem id).isSome, (s.readItem id).getD [])
  | (now, .writeItem id data) => answered (s.writeItem now id data)
  | (now, .processCache) => some (s.processCache now, true, [])
where
  answered (r : DiagDataManager × Bool) := some (r.1, r.2, [])

/-! ## Without a cache -/

def values (s : DiagDataManager) : UInt16 → Option (List UInt8) :=
  Option.map DataItemEntry.data ∘ toMap DataItemEntry.id s.items

abbrev Entry := Taken DiagDataManager (UInt32 × Call) (Bool × List UInt8)

/-- What a call is to do to the values, and a read to return: an item has the value that was in its
buffer when it was registered, until a write is accepted. -/
def Spec (e : Entry) : Prop :=
  match e.input.2 with
  | .registerItem none => e.output.1 = false ∧ e.post.values = e.pre.values
  | .registerItem (some item) => e.post.values =
      if e.output.1 then Function.update e.pre.values item.id (some item.data) else e.pre.values
  | .unregisterItem id => e.post.values = Function.update e.pre.values id none
  | .readItem id =>
    e.post.values = e.pre.values ∧ e.output = ((e.pre.values id).isSome, (e.pre.values id).getD [])
  | .writeItem id data => e.post.values =
      if e.output.1 then Function.update e.pre.values id (some data) else e.pre.values
  | .processCache => e.post.values = e.pre.values

structure Inv (s : DiagDataManager) : Prop where
  unique : Unique DataItemEntry.id s.items
  fresh : ∀ e ∈ s.items, e.isCached = true → e.cacheData = e.data

variable {s : DiagDataManager}

theorem values_of {items items' : List DataItemEntry} {id : UInt16} {e : Option DataItemEntry}
    (h : toMap DataItemEntry.id items' = Function.update (toMap DataItemEntry.id items) id e) :
    Option.map DataItemEntry.data ∘ toMap DataItemEntry.id items' =
      Function.update (Option.map DataItemEntry.data ∘ toMap DataItemEntry.id items) id
        (e.map DataItemEntry.data) := by
  rw [h, Function.comp_update]

theorem Inv.registerItem (h : Inv s) (now : UInt32) (item : Option DiagDataItem) :
    Inv (s.registerItem now item).1 ∧
      Spec ⟨s, (now, .registerItem item), ((s.registerItem now item).2, []),
        (s.registerItem now item).1⟩ := by
  cases item with
  | none => exact ⟨h, rfl, rfl⟩
  | some item =>
    unfold DiagDataManager.registerItem
    dsimp only
    split
    · exact ⟨h, rfl⟩
    split
    · exact ⟨h, rfl⟩
    case isFalse hnew =>
      split
      · exact ⟨h, rfl⟩
      have hnone : lookup DataItemEntry.id (DataItemEntry.mk item now false []).id s.items = none :=
        Option.not_isSome_iff_eq_none.mp hnew
      refine ⟨⟨h.unique.append hnone, fun e he hcached => ?_⟩, values_of (toMap_append hnone)⟩
      rcases List.mem_append.mp he with he | he
      · exact h.fresh e he hcached
      · rw [List.mem_singleton.mp he] at hcached
        cases hcached

theorem Inv.unregisterItem (h : Inv s) (id : UInt16) :
    Inv (s.unregisterItem id).1 ∧
      (s.unregisterItem id).1.values = Function.update s.values id none := by
  refine ⟨⟨h.unique.swapRemove, fun e he => h.fresh e ?_⟩, values_of h.unique.toMap_swapRemove⟩
  exact (remove_sublist s.items).subset ((swapRemove_perm s.items).mem_iff.mp he)

theorem Inv.readItem (h : Inv s) (id : UInt16) : s.readItem id = s.values id := by
  refine Option.map_congr fun e he => ?_
  split
  case isTrue hcached => exact h.fresh e (mem_of_lookup he).1 (Bool.and_eq_true_iff.mp hcached).1
  case isFalse => rfl

theorem Inv.writeItem (h : Inv s) (now : UInt32) (id : UInt16) (data : List UInt8) :
    Inv (s.writeItem now id data).1 ∧
      Spec ⟨s, (now, .writeItem id data), ((s.writeItem now id data).2, []),
        (s.writeItem now id data).1⟩ := by
  unfold DiagDataManager.writeItem
  cases hfind : s.find id with
  | none => exact ⟨h, rfl⟩
  | some e =>
    dsimp only
    split
    · exact ⟨h, rfl⟩
    split
    · exact ⟨h, rfl⟩
    refine ⟨⟨h.unique.update fun _ => rfl, fun e' he' hcached => ?_⟩, ?_⟩
    · rcases mem_update he' with hold | ⟨_, _, _, rfl⟩
      · exact h.fresh e' hold hcached
      · cases hcached
    · have hmap : toMap DataItemEntry.id (update DataItemEntry.id id (·.write now data) s.items) =
          Function.update _ id ((s.find id).map (·.write now data)) :=
        toMap_update (fun e => show (e.write now data).id = e.id from rfl) s.items
      rw [hfind] at hmap
      exact values_of hmap

theorem item_refresh (s : DiagDataManager) (now : UInt32) (e : DataItemEntry) :
    (s.refresh now e).item = e.item := by
  unfold refresh
  split <;> rfl

theorem Inv.processCache (h : Inv s) (now : UInt32) :
    Inv (s.processCache now) ∧ (s.processCache now).values = s.values := by
  have hid : ∀ e, (s.refresh now e).id = e.id := fun e =>
    congrArg DiagDataItem.id (s.item_refresh now e)
  unfold DiagDataManager.processCache
  split
  · exact ⟨h, rfl⟩
  split
  · exact ⟨h, rfl⟩
  refine ⟨⟨?_, fun e he hcached => ?_⟩, funext fun id => ?_⟩
  · unfold Keyed.Unique
    rw [List.map_map, show DataItemEntry.id ∘ s.refresh now = DataItemEntry.id from funext hid]
    exact h.unique
  · obtain ⟨e, hmem, rfl⟩ := List.mem_map.mp he
    unfold refresh at hcached ⊢
    split
    case isTrue => rfl
    case isFalse hold =>
      rw [if_neg hold] at hcached
      exact h.fresh e hmem hcached
  · refine (congrArg (Option.map DataItemEntry.data) (lookup_map _ hid s.items)).trans ?_
    rw [Option.map_map]
    exact Option.map_congr fun e _ => congrArg DiagDataItem.data (s.item_refresh now e)

theorem Inv.step (h : Inv s) (call : UInt32 × Call) :
    ∃ s' o, s.step call = some (s', o) ∧ Inv s' ∧ Spec ⟨s, call, o, s'⟩ := by
  obtain ⟨now, call⟩ := call
  cases call with
  | registerItem item => exact ⟨_, _, rfl, h.registerItem now item⟩
  | unregisterItem id => exact ⟨_, _, rfl, h.unregisterItem id⟩
  | readItem id => exact ⟨s, _, rfl, h, rfl, by rw [h.readItem]⟩
  | writeItem id data => exact ⟨_, _, rfl, h.writeItem now id data⟩
  | processCache => exact ⟨_, _, rfl, h.processCache now⟩

end DiagDataManager

end Cant.Diagnostic.Data
