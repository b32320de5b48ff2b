/-
# `Router` — the routing table as a set of routes

A route that is removed is marked inactive and keeps its slot, unless it is the last one.

The table is meant to be a set of routes (`DiagRouter.table`), and `RouteSpec` says
what each call does to such a set. Three branches break the match:

    AddRoute      finds the route in an inactive slot, and leaves it inactive
    RemoveRoute   stops at an inactive slot
    HandleMessage reports a match although `process_route` drops a long message

and `validate_message` looks at the second byte before it looks at the length.
`Regular` says that a call does not take one of them; every run of regular calls is
a behaviour of the set (`router_refines_set`).

`DiagRouter_Init` adds its three preset routes before it sets `initialized`, so
`DiagRouter_AddRoute` rejects them and the set is empty afterwards.
-/
import Cant.Lib.Buf
import Cant.Lib.Run
import Mathlib.Data.List.Nodup
import Mathlib.Data.Set.Insert

namespace Cant.Diagnostic

open Run List Option Buf

inductive RouteResult where
  | ok | error | busy | timeout | invalidParam
  deriving DecidableEq

/-- What a route is about: the addresses and the service, `0xFFFF` for all. -/
structure Route where
  source : UInt8
  target : UInt8
  service : UInt16
  deriving DecidableEq

/-- The route is for the message: its first three bytes are source, target and
service. -/
def Route.Matches (r : Route) (data : List UInt8) : Prop :=
  data[0]? = some r.source ∧ data[1]? = some r.target ∧
    (r.service = 0xFFFF ∨ data[2]?.map UInt8.toUInt16 = some r.service)
  deriving Decidable

structure DiagRoute where
  route : Route
  active : Bool

structure DiagRouter where
  routes : Buf DiagRoute 16
  routeCount : Nat
  tempBuffer : Buf UInt8 512
  initialized : Bool

def zeroRouter : DiagRouter where
  routes := Buf.fill 16 ⟨⟨0, 0, 0⟩, false⟩
  routeCount := 0
  tempBuffer := Buf.fill 512 0
  initialized := false

def validateMessage (data : List UInt8) : Option Bool := do
  let source ← data[0]?
  if source = 0 then some false
  else do
    let target ← data[1]?
    if target = 0 then some false else some (decide (4 ≤ data.length))

namespace DiagRouter

def slots (s : DiagRouter) : List DiagRoute := s.routes.elems.take s.routeCount

def addRoute (s : DiagRouter) (source target : UInt8) (service : UInt16) :
    Option (DiagRouter × RouteResult) :=
  if ¬ s.initialized then some (s, .error)
  else if source = 0 ∨ target = 0 then some (s, .invalidParam)
  else do
    let used ← s.routes.slice 0 s.routeCount
    if used.any fun x => x.route = ⟨source, target, service⟩ then some (s, .ok)
    else if s.routeCount ≥ 16 then some (s, .error)
    else do
      let routes ← s.routes.blit s.routeCount [⟨⟨source, target, service⟩, true⟩]
      some ({ s with routes := routes, routeCount := s.routeCount + 1 }, .ok)

def joins (source target : UInt8) (x : DiagRoute) : Bool :=
  x.route.source = source && x.route.target = target

def removeRoute (s : DiagRouter) (source target : UInt8) : Option (DiagRouter × RouteResult) :=
  if ¬ s.initialized then some (s, .error)
  else do
    let used ← s.routes.slice 0 s.routeCount
    match used.findIdx? (joins source target) with
    | none => some (s, .error)
    | some i => do
      let x ← used[i]?
      let routes ← s.routes.blit i [{ x with active := false }]
      if i = s.routeCount - 1 then
        some ({ s with routes := routes, routeCount := s.routeCount - 1 }, .ok)
      else some ({ s with routes := routes }, .ok)

def processRoute (s : DiagRouter) (data : List UInt8) : Option (DiagRouter × List (List UInt8)) :=
  if data.length > 512 then some (s, [])
  else do
    let temp ← s.tempBuffer.blit 0 data
    let msg ← temp.slice 0 data.length
    some ({ s with tempBuffer := temp }, [msg])

/-- The loop of `DiagRouter_HandleMessage` over the slots: `route_found`, and what
was handed on. -/
def routeLoop (data : List UInt8) :
    List DiagRoute → DiagRouter → Option (DiagRouter × Bool × List (List UInt8))
  | [], s => some (s, false, [])
  | x :: xs, s =>
    if x.active ∧ x.route.Matches data then do
      let (s, msgs) ← s.processRoute data
      let (s, _, rest) ← routeLoop data xs s
      some (s, true, msgs ++ rest)
    else routeLoop data xs s

/-- `DiagRouter_HandleMessage`; `none` is the null pointer. -/
def handleMessage (s : DiagRouter) :
    Option (List UInt8) → Option (DiagRouter × RouteResult × List (List UInt8))
  | none => some (s, .invalidParam, [])
  | some data =>
    if ¬ s.initialized ∨ data.length = 0 then some (s, .invalidParam, [])
    else do
      let valid ← validateMessage data
      if ¬ valid then some (s, .error, [])
      else if data.length < 3 then some (s, .error, [])
      else do
        let used ← s.routes.slice 0 s.routeCount
        let (s, found, msgs) ← routeLoop data used s
        some (s, if found then .ok else .error, msgs)

def init (s : DiagRouter) : Option (DiagRouter × Bool) :=
  if s.initialized then some (s, false)
  else do
    let (s, _) ← zeroRouter.addRoute 0x01 0xF1 0xFFFF
    let (s, _) ← s.addRoute 0x01 0xF2 0xFFFF
    let (s, _) ← s.addRoute 0x01 0xF3 0xFFFF
    some ({ s with initialized := true }, true)

end DiagRouter

/-! ## Calls, and what they mean on a set of routes -/

inductive RouterOp where
  | add (source target : UInt8) (service : UInt16)
  | remove (source target : UInt8)
  | handle (data : Option (List UInt8))

/-- What a call returns, and what it hands to `DiagCore_HandleMessage`. -/
structure RouterOut where
  result : RouteResult
  delivered : List (List UInt8)
  deriving DecidableEq

def DiagRouter.step (s : DiagRouter) : RouterOp → Option (DiagRouter × RouterOut)
  | .add source target service =>
    (s.addRoute source target service).map fun r => (r.1, ⟨r.2, []⟩)
  | .remove source target => (s.removeRoute source target).map fun r => (r.1, ⟨r.2, []⟩)
  | .handle data => (s.handleMessage data).map fun r => (r.1, ⟨r.2.1, r.2.2⟩)

/-- **The calls on a set of routes.** A route is in the set when adding it
succeeds; removing succeeds exactly if the set has a route between the addresses,
and takes out one; a message is routed exactly if it is complete and the set has a
route for it, and is then handed on. -/
inductive RouteSpec (S : Set Route) : RouterOp → RouterOut → Set Route → Prop
  | added {source target : UInt8} {service : UInt16} :
      RouteSpec S (.add source target service) ⟨.ok, []⟩ (insert ⟨source, target, service⟩ S)
  | refused {source target : UInt8} {service : UInt16} {res : RouteResult} : res ≠ .ok →
      RouteSpec S (.add source target service) ⟨res, []⟩ S
  | removed {source target : UInt8} {r : Route} : r ∈ S → r.source = source → r.target = target →
      RouteSpec S (.remove source target) ⟨.ok, []⟩ (S \ {r})
  | missing {source target : UInt8} {res : RouteResult} :
      (∀ r ∈ S, ¬ (r.source = source ∧ r.target = target)) → res ≠ .ok →
      RouteSpec S (.remove source target) ⟨res, []⟩ S
  | routed {data : List UInt8} {msgs : List (List UInt8)} {r : Route} : r ∈ S →
      r.Matches data → data ∈ msgs → (∀ m ∈ msgs, m = data) →
      RouteSpec S (.handle (some data)) ⟨.ok, msgs⟩ S
  | dropped {data : Option (List UInt8)} {res : RouteResult} :
      (∀ m ∈ data, m.length < 4 ∨ ∀ r ∈ S, ¬ r.Matches m) → res ≠ .ok →
      RouteSpec S (.handle data) ⟨res, []⟩ S

namespace RouteSpec

variable {S S' : Set Route} {source target : UInt8} {service : UInt16} {msgs : List (List UInt8)}

theorem eq_of_added (h : RouteSpec S (.add source target service) ⟨.ok, msgs⟩ S') :
    S' = insert ⟨source, target, service⟩ S := by
  cases h with
  | added => rfl
  | refused hne => exact absurd rfl hne

theorem eq_of_removed (h : RouteSpec S (.remove source target) ⟨.ok, msgs⟩ S') :
    ∃ r ∈ S, r.source = source ∧ r.target = target ∧ S' = S \ {r} := by
  cases h with
  | removed hr hs ht => exact ⟨_, hr, hs, ht, rfl⟩
  | missing _ hne => exact absurd rfl hne

theorem none_of_missing (h : RouteSpec S (.remove source target) ⟨.error, msgs⟩ S') :
    S = S' ∧ ∀ r ∈ S, ¬ (r.source = source ∧ r.target = target) := by
  cases h with
  | missing hno _ => exact ⟨rfl, hno⟩

end RouteSpec

namespace DiagRouter

variable {r : Route} {rest : List DiagRoute} {routes : Buf DiagRoute 16}
variable {s t : DiagRouter}

def table (s : DiagRouter) : Set Route := {r | ∃ x ∈ s.slots, x.active = true ∧ x.route = r}

theorem mem_table :
    r ∈ s.table ↔ ∃ x ∈ s.slots, x.active = true ∧ x.route = r := Iff.rfl

/-- The call does not take a branch that forgets which slots are active, or how
long the message is. -/
def Regular (s : DiagRouter) : RouterOp → Prop
  | .add source target service =>
    ∀ x ∈ s.slots, x.route = ⟨source, target, service⟩ → x.active = true
  | .remove source target => ∀ x ∈ s.slots.find? (joins source target), x.active = true
  | .handle none => True
  | .handle (some data) => (data.length = 1 → data = [0]) ∧
      (512 < data.length → ∀ x ∈ s.slots, x.active = true → ¬ x.route.Matches data)

instance (s : DiagRouter) (op : RouterOp) : Decidable (s.Regular op) := by
  cases op <;> unfold Regular <;> first | infer_instance | (split <;> infer_instance)

/-- What holds between calls: the table is in range, no route has two slots, and no
address is zero. -/
structure Inv (s : DiagRouter) : Prop where
  init : s.initialized = true
  count_le : s.routeCount ≤ 16
  nodup : (s.slots.map DiagRoute.route).Nodup
  addressed : ∀ r ∈ s.slots.map DiagRoute.route, r.source ≠ 0 ∧ r.target ≠ 0

theorem Inv.used (h : s.Inv) : s.routes.slice 0 s.routeCount = some s.slots := by
  have := h.count_le
  rw [slice_eq_some (by omega)]
  rfl

theorem Inv.length_slots (h : s.Inv) : s.slots.length = s.routeCount := by
  have := h.count_le
  rw [slots, length_take, s.routes.size_eq]
  omega

/-! ## Adding -/

variable {source target : UInt8} {front : List DiagRoute} {x : DiagRoute}

theorem Inv.addRoute_eq (h : s.Inv) (service : UInt16) (hnz : ¬ (source = 0 ∨ target = 0)) :
    s.addRoute source target service =
      if s.slots.any fun x => x.route = ⟨source, target, service⟩ then some (s, .ok)
      else if s.routeCount ≥ 16 then some (s, .error)
      else (s.routes.blit s.routeCount [⟨⟨source, target, service⟩, true⟩]).bind fun routes =>
        some ({ s with routes := routes, routeCount := s.routeCount + 1 }, .ok) := by
  rw [addRoute, if_neg (not_not.mpr h.init), if_neg hnz, h.used]
  rfl

theorem Inv.extend (h : s.Inv) (hroom : s.routeCount < 16)
    (hnz : r.source ≠ 0 ∧ r.target ≠ 0) (hnew : r ∉ s.slots.map DiagRoute.route) :
    ∃ routes, s.routes.blit s.routeCount [⟨r, true⟩] = some routes ∧
      Inv { s with routes := routes, routeCount := s.routeCount + 1 } ∧
      table { s with routes := routes, routeCount := s.routeCount + 1 } = insert r s.table := by
  obtain ⟨routes, hblit, -⟩ := s.routes.blit_eq_some s.routeCount [⟨r, true⟩]
    (by rw [length_singleton]; omega)
  have hslots : slots { s with routes := routes, routeCount := s.routeCount + 1 }
      = s.slots ++ [⟨r, true⟩] := take_of_blit hblit
  refine ⟨routes, hblit, ⟨h.init, Nat.succ_le_of_lt hroom, ?_, ?_⟩, ?_⟩
  · rw [hslots, map_append]
    exact List.Nodup.append h.nodup (nodup_singleton r) (disjoint_singleton.mpr hnew)
  · rw [hslots, map_append, forall_mem_append]
    exact ⟨h.addressed, by simpa using hnz⟩
  · ext r'
    rw [mem_table, hslots]
    simp only [mem_append, mem_singleton]
    constructor
    · rintro ⟨x, hx | rfl, hact, hroute⟩
      · exact Or.inr ⟨x, hx, hact, hroute⟩
      · exact Or.inl hroute.symm
    · rintro (rfl | ⟨x, hx, hact, hroute⟩)
      · exact ⟨⟨r', true⟩, Or.inr rfl, rfl, rfl⟩
      · exact ⟨x, Or.inl hx, hact, hroute⟩

theorem addRoute_spec (h : s.Inv) {service : UInt16}
    (hreg : s.Regular (.add source target service)) :
    ∃ t out S, s.step (.add source target service) = some (t, out) ∧
      RouteSpec s.table (.add source target service) out S ∧ t.Inv ∧ t.table = S := by
  by_cases hzero : source = 0 ∨ target = 0
  · refine ⟨s, ⟨.invalidParam, []⟩, _, ?_, .refused (by decide), h, rfl⟩
    rw [step, addRoute, if_neg (not_not.mpr h.init), if_pos hzero]
    rfl
  simp only [step, h.addRoute_eq service hzero]
  by_cases hold : s.slots.any fun x => x.route = ⟨source, target, service⟩
  · -- the route has a slot, and as the call is regular the slot is active
    obtain ⟨x, hx, hroute⟩ := any_eq_true.mp hold
    have hin : ⟨source, target, service⟩ ∈ s.table :=
      ⟨x, hx, hreg x hx (of_decide_eq_true hroute), of_decide_eq_true hroute⟩
    refine ⟨s, ⟨.ok, []⟩, _, ?_, .added, h, (Set.insert_eq_of_mem hin).symm⟩
    rw [if_pos hold]
    rfl
  rw [if_neg hold]
  by_cases hfull : s.routeCount ≥ 16
  · refine ⟨s, ⟨.error, []⟩, _, ?_, .refused (by decide), h, rfl⟩
    rw [if_pos hfull]
    rfl
  · have hnew : ⟨source, target, service⟩ ∉ s.slots.map DiagRoute.route := by
      intro hmem
      obtain ⟨x, hx, hroute⟩ := mem_map.mp hmem
      exact hold (any_eq_true.mpr ⟨x, hx, decide_eq_true hroute⟩)
    obtain ⟨routes, hblit, hinv, htable⟩ := h.extend (by omega) (not_or.mp hzero) hnew
    refine ⟨_, ⟨.ok, []⟩, _, ?_, .added, hinv, htable⟩
    rw [if_neg hfull, hblit]
    rfl

/-! ## Removing -/

theorem findIdx?_split {α : Type} {p : α → Bool} : ∀ {xs : List α} {i : Nat},
    xs.findIdx? p = some i →
    ∃ front x rest, xs = front ++ x :: rest ∧ front.length = i ∧ p x = true ∧
      xs.find? p = some x
  | [], i, h => by cases h
  | y :: ys, i, h => by
    rw [findIdx?_cons] at h
    by_cases hy : p y = true
    · rw [if_pos hy] at h
      cases h
      exact ⟨[], y, ys, rfl, rfl, hy, find?_cons_of_pos hy⟩
    · rw [if_neg hy] at h
      obtain ⟨j, hj, rfl⟩ := map_eq_some_iff.mp h
      obtain ⟨front, x, rest, rfl, rfl, hx, hfind⟩ := findIdx?_split hj
      exact ⟨y :: front, x, rest, rfl, rfl, hx, (find?_cons_of_neg hy).trans hfind⟩

theorem Inv.table_diff (h : s.Inv) (hsplit : s.slots = front ++ x :: rest)
    (hslots : ∀ y, y.active = true → (y ∈ t.slots ↔ y ∈ front ++ rest)) :
    t.table = s.table \ {x.route} := by
  have hnodup := h.nodup
  rw [hsplit, map_append, map_cons, nodup_middle, nodup_cons, ← map_append] at hnodup
  ext r
  rw [Set.mem_sdiff, mem_table, mem_table, hsplit]
  constructor
  · rintro ⟨y, hy, hact, rfl⟩
    have hy := (hslots y hact).mp hy
    refine ⟨⟨y, ?_, hact, rfl⟩, ?_⟩
    · simp only [mem_append, mem_cons] at hy ⊢
      exact hy.imp_right Or.inr
    · intro heq
      exact hnodup.1 (mem_map.mpr ⟨y, hy, heq⟩)
  · rintro ⟨⟨y, hy, hact, rfl⟩, hne⟩
    refine ⟨y, (hslots y hact).mpr ?_, hact, rfl⟩
    simp only [mem_append, mem_cons] at hy ⊢
    rcases hy with hy | rfl | hy
    · exact Or.inl hy
    · exact absurd rfl hne
    · exact Or.inr hy

theorem Inv.drop_last (h : s.Inv) (hsplit : s.slots = front ++ [x])
    (hmarked : routes.elems.take s.routeCount = front ++ [{ x with active := false }]) :
    Inv { s with routes := routes, routeCount := s.routeCount - 1 } ∧
      table { s with routes := routes, routeCount := s.routeCount - 1 } = s.table \ {x.route} := by
  have hlen := h.length_slots
  rw [hsplit, length_append, length_singleton] at hlen
  have hslots : slots { s with routes := routes, routeCount := s.routeCount - 1 } = front := by
    have htake := congrArg (List.take (s.routeCount - 1)) hmarked
    rwa [take_take, Nat.min_eq_left (by omega), take_left' (by omega)] at htake
  have hroutes : s.slots.map DiagRoute.route = front.map DiagRoute.route ++ [x.route] := by
    rw [hsplit, map_append]
    rfl
  refine ⟨⟨h.init, ?_, ?_, ?_⟩, h.table_diff hsplit ?_⟩
  · exact (Nat.sub_le _ _).trans h.count_le
  · have hnodup := h.nodup
    rw [hroutes] at hnodup
    rw [hslots]
    exact hnodup.of_append_left
  · intro r hr
    rw [hslots] at hr
    refine h.addressed r ?_
    rw [hroutes]
    exact mem_append_left _ hr
  · intro y _
    rw [hslots, append_nil]

theorem Inv.mark (h : s.Inv) (hsplit : s.slots = front ++ x :: rest)
    (hmarked : routes.elems.take s.routeCount = front ++ { x with active := false } :: rest) :
    Inv { s with routes := routes } ∧ table { s with routes := routes } = s.table \ {x.route} := by
  have hsame : (routes.elems.take s.routeCount).map DiagRoute.route
      = s.slots.map DiagRoute.route := by
    rw [hmarked, hsplit, map_append, map_append]
    rfl
  refine ⟨⟨h.init, h.count_le, hsame.symm ▸ h.nodup, hsame.symm ▸ h.addressed⟩,
    h.table_diff hsplit ?_⟩
  intro y hy
  show y ∈ routes.elems.take s.routeCount ↔ _
  rw [hmarked]
  simp only [mem_append, mem_cons]
  refine or_congr_right (or_iff_right ?_)
  rintro rfl
  cases hy

theorem removeRoute_spec (h : s.Inv) (hreg : s.Regular (.remove source target)) :
    ∃ t out S, s.step (.remove source target) = some (t, out) ∧
      RouteSpec s.table (.remove source target) out S ∧ t.Inv ∧ t.table = S := by
  cases hidx : s.slots.findIdx? (joins source target) with
  | none =>
    refine ⟨s, ⟨.error, []⟩, _, ?_, .missing ?_ (by decide), h, rfl⟩
    · simp [step, removeRoute, h.used, hidx]
    · rintro r ⟨x, hx, -, rfl⟩ ⟨rfl, rfl⟩
      have := findIdx?_eq_none_iff.mp hidx x hx
      simp [joins] at this
  | some i =>
    obtain ⟨front, x, rest, hsplit, rfl, hjoin, hfind⟩ := findIdx?_split hidx
    obtain ⟨rfl, rfl⟩ : x.route.source = source ∧ x.route.target = target := by
      simpa [joins] using hjoin
    have hlen := h.length_slots
    rw [hsplit, length_append, length_cons] at hlen
    have hcount := h.count_le
    obtain ⟨routes, hblit, -⟩ := s.routes.blit_eq_some front.length [{ x with active := false }]
      (by rw [length_singleton]; omega)
    have hcell : s.slots[front.length]? = some x := by
      rw [hsplit, getElem?_append_right .refl, Nat.sub_self]
      rfl
    have hmarked : routes.elems.take s.routeCount
        = front ++ { x with active := false } :: rest := by
      rw [elems_blit_single hblit, take_set]
      show s.slots.set _ _ = _
      rw [hsplit, set_append_right _ _ .refl, Nat.sub_self]
      rfl
    have hin : x.route ∈ s.table := ⟨x, by rw [hsplit]; simp, hreg x hfind, rfl⟩
    by_cases hlast : front.length = s.routeCount - 1
    · obtain rfl : rest = [] := length_eq_zero_iff.mp (by omega)
      obtain ⟨hinv, htable⟩ := h.drop_last hsplit hmarked
      refine ⟨_, ⟨.ok, []⟩, _, ?_, .removed hin rfl rfl, hinv, htable⟩
      simp only [step, removeRoute, if_neg (not_not.mpr h.init), h.used, bind_eq_bind,
        bind_some, hidx, hcell, hblit, if_pos hlast, map_some]
    · obtain ⟨hinv, htable⟩ := h.mark hsplit hmarked
      refine ⟨_, ⟨.ok, []⟩, _, ?_, .removed hin rfl rfl, hinv, htable⟩
      simp only [step, removeRoute, if_neg (not_not.mpr h.init), h.used, bind_eq_bind,
        bind_some, hidx, hcell, hblit, if_neg hlast, map_some]

/-! ## Routing -/

theorem processRoute_eq (s : DiagRouter) (data : List UInt8) (hlen : data.length ≤ 512) :
    ∃ temp, s.processRoute data = some ({ s with tempBuffer := temp }, [data]) := by
  obtain ⟨temp, hblit, -⟩ := s.tempBuffer.blit_eq_some 0 data (by omega)
  have hback := take_of_blit hblit
  rw [Nat.zero_add, take_zero, nil_append] at hback
  refine ⟨temp, ?_⟩
  simp [processRoute, if_neg (by omega : ¬ data.length > 512), hblit,
    slice_eq_some (by omega : 0 + data.length ≤ 512), hback]

/-- What the loop makes of the slots `xs`: the message goes out once for every
active slot that matches it. -/
theorem routeLoop_spec (data : List UInt8) : ∀ (xs : List DiagRoute) (s : DiagRouter),
    (512 < data.length → ∀ x ∈ xs, x.active = true → ¬ x.route.Matches data) →
    ∃ temp msgs, routeLoop data xs s = some ({ s with tempBuffer := temp },
        decide (∃ x ∈ xs, x.active = true ∧ x.route.Matches data), msgs) ∧
      (∀ m ∈ msgs, m = data) ∧
      ((∃ x ∈ xs, x.active = true ∧ x.route.Matches data) → data ∈ msgs) ∧
      ((¬ ∃ x ∈ xs, x.active = true ∧ x.route.Matches data) → msgs = [])
  | [], s, _ => ⟨s.tempBuffer, [], by simp [routeLoop], by simp, by simp, by simp⟩
  | x :: xs, s, hlong => by
    have hlong' := fun hl y hy => hlong hl y (mem_cons_of_mem x hy)
    by_cases hx : x.active = true ∧ x.route.Matches data
    · have hlen : data.length ≤ 512 := by
        by_contra hgt
        exact hlong (by omega) x mem_cons_self hx.1 hx.2
      obtain ⟨temp, hproc⟩ := s.processRoute_eq data hlen
      obtain ⟨temp', msgs, hloop, hall, -, -⟩ :=
        routeLoop_spec data xs { s with tempBuffer := temp } hlong'
      have hsome : ∃ y ∈ x :: xs, y.active = true ∧ y.route.Matches data := ⟨x, .head _, hx⟩
      refine ⟨temp', data :: msgs, ?_, ?_, fun _ => .head _, fun hno => absurd hsome hno⟩
      · rw [routeLoop, if_pos hx, hproc, decide_eq_true hsome]
        simp [hloop]
      · simpa using hall
    · have hiff : (∃ y ∈ x :: xs, y.active = true ∧ y.route.Matches data) ↔
          ∃ y ∈ xs, y.active = true ∧ y.route.Matches data := by
        simp [or_iff_right hx]
      obtain ⟨temp, msgs, hloop, hall, hyes, hno⟩ := routeLoop_spec data xs s hlong'
      refine ⟨temp, msgs, ?_, hall, hyes ∘ hiff.mp, fun h => hno (h ∘ hiff.mpr)⟩
      rw [routeLoop, if_neg hx, hloop]
      simp only [hiff]

theorem validateMessage_eq {data : List UInt8} (hne : data.length ≠ 0)
    (hone : data.length = 1 → data = [0]) :
    ∃ valid, validateMessage data = some valid ∧ (valid = true → 4 ≤ data.length) ∧
      (valid = false → data.length < 4 ∨ data[0]? = some 0 ∨ data[1]? = some 0) := by
  match data, hne, hone with
  | [b], _, hone =>
    obtain rfl : b = 0 := by simpa using hone rfl
    exact ⟨false, rfl, by simp, by simp⟩
  | a :: b :: rest, _, _ =>
    by_cases ha : a = 0
    · exact ⟨false, by simp [validateMessage, ha], by simp, by simp [ha]⟩
    by_cases hb : b = 0
    · exact ⟨false, by simp [validateMessage, hb], by simp, by simp [hb]⟩
    · refine ⟨_, by simp only [validateMessage, getElem?_cons_zero, getElem?_cons_succ,
        bind_eq_bind, bind_some, if_neg ha, if_neg hb]; rfl, ?_, ?_⟩
      · simp
      · simp only [decide_eq_false_iff_not, Nat.not_le]
        exact Or.inl

theorem handleMessage_spec (h : s.Inv) {data : Option (List UInt8)}
    (hreg : s.Regular (.handle data)) :
    ∃ t out S, s.step (.handle data) = some (t, out) ∧
      RouteSpec s.table (.handle data) out S ∧ t.Inv ∧ t.table = S := by
  cases data with
  | none => exact ⟨s, ⟨.invalidParam, []⟩, _, rfl, .dropped (by simp) (by decide), h, rfl⟩
  | some data =>
    by_cases hzero : data.length = 0
    · refine ⟨s, ⟨.invalidParam, []⟩, _, ?_, .dropped ?_ (by decide), h, rfl⟩
      · rw [step, handleMessage, if_pos (Or.inr hzero)]
        rfl
      · rintro m ⟨⟩
        exact Or.inl (by omega)
    obtain ⟨valid, hvalid, hyes, hno⟩ := validateMessage_eq hzero hreg.1
    have hnot : ¬ (¬ s.initialized = true ∨ data.length = 0) := by
      simp [h.init, hzero]
    cases valid with
    | false =>
      refine ⟨s, ⟨.error, []⟩, _, ?_, .dropped ?_ (by decide), h, rfl⟩
      · simp only [step, handleMessage, if_neg hnot, some_bind hvalid, Bool.false_eq_true,
          not_false_iff, if_true, map_some]
      · -- no route has a zero address
        rintro m ⟨⟩
        refine (hno rfl).imp_right ?_
        rintro hz r ⟨x, hx, -, rfl⟩ ⟨hsource, htarget, -⟩
        have haddr := h.addressed _ (mem_map_of_mem hx)
        rcases hz with hz | hz
        · exact haddr.1 (mem_unique hsource hz)
        · exact haddr.2 (mem_unique htarget hz)
    | true =>
      have hfour := hyes rfl
      obtain ⟨temp, msgs, hloop, hall, hsome, hnone⟩ := routeLoop_spec data s.slots s hreg.2
      have hstep : s.step (.handle (some data)) = some ({ s with tempBuffer := temp },
          ⟨if ∃ x ∈ s.slots, x.active = true ∧ x.route.Matches data then .ok else .error,
            msgs⟩) := by
        simp only [step, handleMessage, if_neg hnot, hvalid, bind_eq_bind,
          bind_some, not_true, if_false, if_neg (by omega : ¬ data.length < 3), h.used,
          hloop, map_some, decide_eq_true_eq]
      have hinv : Inv { s with tempBuffer := temp } := ⟨h.init, h.count_le, h.nodup, h.addressed⟩
      by_cases hex : ∃ x ∈ s.slots, x.active = true ∧ x.route.Matches data
      · rw [if_pos hex] at hstep
        obtain ⟨x, hx, hact, hmatch⟩ := hex
        exact ⟨_, _, _, hstep, .routed ⟨x, hx, hact, rfl⟩ hmatch
          (hsome ⟨x, hx, hact, hmatch⟩) hall, hinv, rfl⟩
      · rw [if_neg hex, hnone hex] at hstep
        refine ⟨_, _, _, hstep, .dropped ?_ (by decide), hinv, rfl⟩
        rintro m ⟨⟩
        refine Or.inr ?_
        rintro r ⟨x, hx, hact, rfl⟩ hmatch
        exact hex ⟨x, hx, hact, hmatch⟩

theorem step_spec (h : s.Inv) {op : RouterOp} (hreg : s.Regular op) :
    ∃ t out S, s.step op = some (t, out) ∧ RouteSpec s.table op out S ∧ t.Inv ∧ t.table = S := by
  cases op with
  | add source target service => exact addRoute_spec h hreg
  | remove source target => exact removeRoute_spec h hreg
  | handle data => exact handleMessage_spec h hreg

theorem init_eq (h : s.initialized = false) :
    s.init = some ({ zeroRouter with initialized := true }, true) := by
  rw [init, if_neg (by simp [h])]
  rfl

theorem init_inv (h : s.init = some (t, true)) : t.Inv ∧ t.table = ∅ := by
  cases hs : s.initialized with
  | true => simp [init, hs] at h
  | false =>
    rw [init_eq hs] at h
    obtain ⟨rfl, -⟩ := h
    have hslots : slots { zeroRouter with initialized := true } = [] := rfl
    refine ⟨⟨rfl, by decide, nodup_nil, by rw [hslots]; simp⟩, ?_⟩
    ext r
    rw [mem_table, hslots]
    simp

end DiagRouter

open DiagRouter

/-- **The router is a set of routes.** After `DiagRouter_Init` every run of
regular calls is defined and is a behaviour of a set of routes that starts empty;
the set is the one the table stands for. -/
theorem router_refines_set {s₀ s : DiagRouter} (hinit : s₀.init = some (s, true))
    (ops : List RouterOp) (hreg : Along DiagRouter.step Regular s ops) :
    ∃ t outs S, run DiagRouter.step s ops = some (t, outs) ∧ Trace RouteSpec ∅ ops outs S ∧
      t.table = S := by
  obtain ⟨hinv, htable⟩ := init_inv hinit
  obtain ⟨t, outs, S, hrun, htrace, -, hS⟩ := run_traces
    (fun s S => s.Inv ∧ s.table = S)
    (fun s S op hs hop => by
      obtain ⟨hinv, rfl⟩ := hs
      obtain ⟨t, out, S', hstep, hspec, hinv', hS'⟩ := step_spec hinv hop
      exact ⟨t, out, S', hstep, hspec, hinv', hS'⟩)
    ops ⟨hinv, htable⟩ hreg
  exact ⟨t, outs, S, hrun, htrace, hS⟩

theorem router_refines_set_readded :
    ∃ s, zeroRouter.init = some (s, true) ∧
      ∃ t outs S, run DiagRouter.step s [.add 1 2 3, .add 1 2 0xFFFF, .remove 1 2, .add 5 6 7,
          .handle (some [1, 2, 9, 0])] = some (t, outs) ∧
        Trace RouteSpec ∅ [.add 1 2 3, .add 1 2 0xFFFF, .remove 1 2, .add 5 6 7,
          .handle (some [1, 2, 9, 0])] outs S ∧ t.table = S :=
  ⟨_, rfl, router_refines_set (show zeroRouter.init = some (_, true) from rfl) _
    (by decide +kernel)⟩

/-- A route is removed twice: the second call finds the slot of the first one and
answers `ROUTE_OK`, although no route between the addresses is left. -/
theorem removed_twice_not_set :
    (zeroRouter.init.bind fun r => (run DiagRouter.step r.1
        [.remove 1 2, .add 1 2 3, .add 5 6 7, .remove 1 2, .remove 1 2]).map Prod.snd) =
      some [⟨.error, []⟩, ⟨.ok, []⟩, ⟨.ok, []⟩, ⟨.ok, []⟩, ⟨.ok, []⟩] ∧
    ∀ S S' : Set Route, ¬ Trace RouteSpec S
      [.remove 1 2, .add 1 2 3, .add 5 6 7, .remove 1 2, .remove 1 2]
      [⟨.error, []⟩, ⟨.ok, []⟩, ⟨.ok, []⟩, ⟨.ok, []⟩, ⟨.ok, []⟩] S' := by
  refine ⟨by decide +kernel, ?_⟩
  intro S S' htrace
  rcases htrace with _ | ⟨h₁, _ | ⟨h₂, _ | ⟨h₃, _ | ⟨h₄, _ | ⟨h₅, -⟩⟩⟩⟩⟩
  obtain ⟨rfl, hnone⟩ := h₁.none_of_missing
  obtain rfl := h₂.eq_of_added
  obtain rfl := h₃.eq_of_added
  obtain ⟨r, hr, hsource, htarget, rfl⟩ := h₄.eq_of_removed
  obtain ⟨r', ⟨hr', hne⟩, hsource', htarget', -⟩ := h₅.eq_of_removed
  -- the only route between the two addresses is the one that was added
  have honly : ∀ x ∈ insert (⟨5, 6, 7⟩ : Route) (insert ⟨1, 2, 3⟩ S),
      x.source = 1 → x.target = 2 → x = ⟨1, 2, 3⟩ := by
    rintro x (rfl | rfl | hx) hs ht
    · cases hs
    · rfl
    · exact absurd ⟨hs, ht⟩ (hnone x hx)
  exact hne ((honly r' hr' hsource' htarget').trans (honly r hr hsource htarget).symm)

end Cant.Diagnostic
