/-
# `RouteTable` — routes in hash chains (`route_table.c`)

Sixteen chains run through one array, linked by index. A new entry is put in front of its chain and
a removed one is only unlinked, so a chain always runs to older entries. The abstract table is
`Routes`, and every run answers as it does (`routes_refine`).

A walk that goes on after every entry, or leaves the array, does not answer.
-/
import Cant.Lib.Keyed
import Cant.Lib.Run

namespace Cant.Diagnostic.RouteChains

open Keyed Function

structure Route where
  source : UInt8
  target : UInt8
  service : UInt16

structure RouteEntry extends Route where
  next : UInt8

/-- `RouteTable`, with the first `entry_count` entries. -/
structure RouteTable where
  entries : List RouteEntry
  hashTable : Fin 16 → UInt8

abbrev Key := UInt8 × UInt8

def Route.key (r : Route) : Key := (r.source, r.target)

def calcHash (k : Key) : Fin 16 :=
  ⟨(k.1.toNat * 7 + k.2.toNat * 13) % 16, Nat.mod_lt _ (Nat.succ_pos 15)⟩

namespace RouteTable

def init : RouteTable := ⟨[], fun _ => 0xFF⟩

def add (t : RouteTable) (r : Route) : RouteTable × Bool :=
  if t.entries.length ≥ 32 then (t, false)
  else (⟨t.entries ++ [⟨r, t.hashTable (calcHash r.key)⟩],
    Function.update t.hashTable (calcHash r.key) (UInt8.ofNat t.entries.length)⟩, true)

def findFrom (entries : List RouteEntry) (k : Key) : Nat → UInt8 → Option (Option Nat)
  | 0, _ => none
  | fuel + 1, idx =>
    if idx = 0xFF then some none
    else do
      let entry ← entries[idx.toNat]?
      if entry.key = k then some (some idx.toNat) else findFrom entries k fuel entry.next

def unlink (entries : List RouteEntry) (k : Key) :
    Nat → UInt8 → Option (List RouteEntry × UInt8 × Bool)
  | 0, _ => none
  | fuel + 1, idx =>
    if idx = 0xFF then some (entries, idx, false)
    else do
      let entry ← entries[idx.toNat]?
      if entry.key = k then some (entries, entry.next, true)
      else
        let (entries, next, found) ← unlink entries k fuel entry.next
        some (entries.set idx.toNat ⟨entry.toRoute, next⟩, idx, found)

def find (t : RouteTable) (k : Key) : Option (Option Nat) :=
  findFrom t.entries k (t.entries.length + 1) (t.hashTable (calcHash k))

def remove (t : RouteTable) (k : Key) : Option (RouteTable × Bool) := do
  let (entries, head, found) ← unlink t.entries k (t.entries.length + 1) (t.hashTable (calcHash k))
  some (⟨entries, Function.update t.hashTable (calcHash k) head⟩, found)

inductive Call where
  | add (route : Route)
  | remove (k : Key)
  | find (k : Key)

/-- Whether a call was successful, and the entry it found. -/
abbrev Answer := Bool × Option Nat

def step (t : RouteTable) : Call → Option (RouteTable × Answer)
  | .add route => some ((t.add route).1, (t.add route).2, none)
  | .remove k => (t.remove k).map fun x => (x.1, x.2, none)
  | .find k => (t.find k).map fun i => (t, i.isSome, i)

end RouteTable

open RouteTable

/-- A route and the entry it is stored in. -/
structure Stored where
  index : Nat
  route : Route

def Stored.key (x : Stored) : Key := x.route.key

/-- How many routes were added, and those of them that were not removed, the newest first. -/
abbrev Routes := Nat × List Stored

def Routes.step : Routes → Call → Option (Routes × Answer)
  | (n, live), .add route =>
    some (if n ≥ 32 then ((n, live), false, none) else ((n + 1, ⟨n, route⟩ :: live), true, none))
  | (n, live), .remove k =>
    some ((n, Keyed.remove Stored.key k live), (lookup Stored.key k live).isSome, none)
  | (n, live), .find k =>
    some ((n, live), (lookup Stored.key k live).isSome, (lookup Stored.key k live).map Stored.index)

/-- The entries on the way from an index to the end of its chain. -/
def Chain (entries : List RouteEntry) : UInt8 → List Stored → Prop
  | idx, [] => idx = 0xFF
  | idx, x :: chain => idx.toNat = x.index ∧
      ∃ next, entries[x.index]? = some ⟨x.route, next⟩ ∧ Chain entries next chain

/-- Every entry of a chain is older than the one before it. -/
def Older (chain : List Stored) : Prop := chain.Pairwise fun x y => y.index < x.index

variable {entries entries' : List RouteEntry} {idx : UInt8} {chain : List Stored}

section

variable (h : Chain entries idx chain)
include h

theorem Chain.congr
    (heq : ∀ x ∈ chain, entries'[x.index]? = entries[x.index]?) : Chain entries' idx chain := by
  induction chain generalizing idx with
  | nil => exact h
  | cons x chain ih =>
    obtain ⟨hidx, next, hentry, htail⟩ := h
    rw [List.forall_mem_cons] at heq
    exact ⟨hidx, next, heq.1.trans hentry, ih htail heq.2⟩

theorem Chain.mem {x : Stored} (hx : x ∈ chain) :
    ∃ next, entries[x.index]? = some ⟨x.route, next⟩ := by
  induction chain generalizing idx with
  | nil => cases hx
  | cons y chain ih =>
    obtain ⟨-, next, hentry, htail⟩ := h
    rcases List.mem_cons.mp hx with rfl | hx
    · exact ⟨next, hentry⟩
    · exact ih htail hx

theorem Chain.index_lt : ∀ x ∈ chain, x.index < entries.length :=
  fun _ hx => (List.getElem?_eq_some_iff.mp (h.mem hx).choose_spec).1

end

theorem Older.length_le {n : Nat} (h : Older chain) (hlt : ∀ x ∈ chain, x.index < n) :
    chain.length ≤ n := by
  induction chain generalizing n with
  | nil => exact n.zero_le
  | cons x chain ih =>
    obtain ⟨hhead, htail⟩ := List.pairwise_cons.mp h
    exact Nat.lt_of_le_of_lt (ih htail hhead) (hlt x List.mem_cons_self)

theorem Chain.ne_end {x : Stored} (h : Chain entries idx (x :: chain))
    (hroom : entries.length ≤ 32) : idx ≠ 0xFF := by
  rintro rfl
  have hlt := h.index_lt x List.mem_cons_self
  have h255 : 255 = x.index := h.1
  omega

theorem Chain.findFrom (h : Chain entries idx chain) (hroom : entries.length ≤ 32)
    (k : Key) {fuel : Nat} (hfuel : chain.length < fuel) :
    findFrom entries k fuel idx = some ((lookup Stored.key k chain).map Stored.index) := by
  induction fuel generalizing idx chain with
  | zero => exact absurd hfuel (Nat.not_lt_zero _)
  | succ fuel ih =>
    cases chain with
    | nil => exact if_pos h
    | cons x chain =>
      have hne := h.ne_end hroom
      obtain ⟨hidx, next, hentry, htail⟩ := h
      rw [RouteTable.findFrom, if_neg hne, hidx, hentry, lookup]
      change (if x.key = k then _ else _) = _
      split
      · rfl
      · exact ih htail (Nat.lt_of_succ_lt_succ hfuel)

/-- What the loop of `RouteTable_Remove` does to the chain, and to the entries of other chains. -/
theorem Chain.unlink (h : Chain entries idx chain) (holder : Older chain)
    (hroom : entries.length ≤ 32) (k : Key) {fuel : Nat} (hfuel : chain.length < fuel) :
    ∃ entries' head,
      unlink entries k fuel idx = some (entries', head, (lookup Stored.key k chain).isSome) ∧
      Chain entries' head (Keyed.remove Stored.key k chain) ∧ entries'.length = entries.length ∧
      ∀ i, (∀ x ∈ chain, x.index ≠ i) → entries'[i]? = entries[i]? := by
  induction fuel generalizing idx chain with
  | zero => exact absurd hfuel (Nat.not_lt_zero _)
  | succ fuel ih =>
    cases chain with
    | nil => exact ⟨entries, idx, if_pos h, h, rfl, fun _ _ => rfl⟩
    | cons x chain =>
      have hne := h.ne_end hroom
      obtain ⟨hidx, next, hentry, htail⟩ := h
      obtain ⟨hhead, holder⟩ := List.pairwise_cons.mp holder
      have hlt := (List.getElem?_eq_some_iff.mp hentry).1
      rw [RouteTable.unlink, if_neg hne, hidx, hentry, lookup, Keyed.remove]
      by_cases hk : x.key = k
      · rw [if_pos hk, if_pos hk]
        exact ⟨entries, next, if_pos hk, htail, rfl, fun _ _ => rfl⟩
      · rw [if_neg hk, if_neg hk]
        obtain ⟨entries', head, hrun, hchain, hlength, hframe⟩ :=
          ih htail holder (Nat.lt_of_succ_lt_succ hfuel)
        refine ⟨entries'.set x.index ⟨x.route, head⟩, idx, ?_, ⟨hidx, head, ?_, ?_⟩, ?_, ?_⟩
        · refine (if_neg hk).trans ?_
          rw [hrun]
          rfl
        · exact List.getElem?_set_self (hlength ▸ hlt)
        · refine hchain.congr fun y hy => List.getElem?_set_ne ?_
          exact Nat.ne_of_gt (hhead y ((remove_sublist chain).subset hy))
        · rw [List.length_set, hlength]
        · intro i hi
          rw [List.forall_mem_cons] at hi
          rw [List.getElem?_set_ne hi.1, hframe i hi.2]

def chainOf (live : List Stored) (hash : Fin 16) : List Stored :=
  live.filter (calcHash ·.key = hash)

/-- The chains are the live routes, by their hash. -/
structure Linked (t : RouteTable) (routes : Routes) : Prop where
  count : t.entries.length = routes.1
  room : routes.1 ≤ 32
  older : Older routes.2
  chain : ∀ hash, Chain t.entries (t.hashTable hash) (chainOf routes.2 hash)

namespace Linked

variable {t : RouteTable} {n : Nat} {live : List Stored}

section

variable (h : Linked t (n, live))
include h

theorem older_chain (hash : Fin 16) : Older (chainOf live hash) :=
  List.Pairwise.sublist List.filter_sublist h.older

theorem fuel (hash : Fin 16) : (chainOf live hash).length < t.entries.length + 1 :=
  Nat.lt_succ_of_le ((h.older_chain hash).length_le (h.chain hash).index_lt)

theorem add (hroom : ¬ n ≥ 32) (r : Route) : Linked (t.add r).1 (n + 1, ⟨n, r⟩ :: live) := by
  have hlength : t.entries.length = n := h.count
  rw [RouteTable.add, hlength, if_neg hroom]
  refine ⟨?_, Nat.not_le.mp hroom, ?_, fun hash => ?_⟩
  · exact List.length_append.trans (congrArg (· + 1) hlength)
  · refine List.pairwise_cons.mpr ⟨fun x hx => ?_, h.older⟩
    rw [← hlength]
    exact (h.chain (calcHash x.key)).index_lt x (List.mem_filter.mpr ⟨hx, decide_eq_true rfl⟩)
  · have hold : Chain (t.entries ++ [⟨r, t.hashTable (calcHash r.key)⟩]) (t.hashTable hash)
        (chainOf live hash) :=
      (h.chain hash).congr fun x hx => List.getElem?_append_left ((h.chain hash).index_lt x hx)
    dsimp only
    by_cases hhash : calcHash (Stored.key ⟨n, r⟩) = hash
    · rw [chainOf, List.filter_cons, if_pos (decide_eq_true hhash), ← hhash]
      rw [← hhash] at hold
      exact ⟨(congrArg _ (update_self ..)).trans (Nat.mod_eq_of_lt (by omega)), _,
        hlength ▸ List.getElem?_concat_length, hold⟩
    · have hne : hash ≠ calcHash r.key := Ne.symm hhash
      rw [chainOf, List.filter_cons, if_neg (mt of_decide_eq_true hhash), update_of_ne hne]
      exact hold

theorem remove (k : Key) :
    ∃ t', t.remove k = some (t', (lookup Stored.key k live).isSome) ∧
      Linked t' (n, Keyed.remove Stored.key k live) := by
  obtain ⟨entries', head, hrun, hchain, hlength, hframe⟩ :=
    (h.chain (calcHash k)).unlink (h.older_chain _) (h.count ▸ h.room) k (h.fuel _)
  have hpos (x : Stored) (hx : x.key = k) : decide (calcHash x.key = calcHash k) = true :=
    decide_eq_true (congrArg calcHash hx)
  rw [RouteTable.remove, hrun, chainOf, lookup_filter hpos]
  refine ⟨_, rfl, hlength.trans h.count, h.room, h.older.sublist (remove_sublist _), fun hash => ?_⟩
  dsimp only
  by_cases hhash : hash = calcHash k
  · rw [hhash, update_self, chainOf, filter_remove hpos]
    exact hchain
  · have hneg (x : Stored) (hx : x.key = k) : ¬ decide (calcHash x.key = hash) = true := fun heq =>
      hhash ((of_decide_eq_true heq).symm.trans (congrArg calcHash hx))
    rw [update_of_ne hhash, chainOf, filter_remove_of_neg hneg]
    -- an entry of another chain has another route, so it is not one that was visited
    refine (h.chain hash).congr fun x hx => hframe _ fun y hy heq => hhash ?_
    obtain ⟨next, hentry⟩ := (h.chain hash).mem hx
    obtain ⟨next', hentry'⟩ := (h.chain (calcHash k)).mem hy
    rw [heq, hentry, Option.some.injEq, RouteEntry.mk.injEq] at hentry'
    have hx := of_decide_eq_true (List.mem_filter.mp hx).2
    have hy := of_decide_eq_true (List.mem_filter.mp hy).2
    rw [← hx, ← hy, Stored.key, hentry'.1, Stored.key]

end

theorem step {routes : Routes} (h : Linked t routes) (call : Call) : ∃ t' routes' answer,
    t.step call = some (t', answer) ∧ routes.step call = some (routes', answer) ∧
      Linked t' routes' := by
  obtain ⟨n, live⟩ := routes
  cases call with
  | add r =>
    by_cases hroom : n ≥ 32
    · refine ⟨t, _, _, ?_, congrArg some (if_pos hroom), h⟩
      rw [RouteTable.step, RouteTable.add, h.count, if_pos hroom]
    · refine ⟨_, _, _, ?_, congrArg some (if_neg hroom), h.add hroom r⟩
      rw [RouteTable.step, RouteTable.add, h.count, if_neg hroom]
  | remove k =>
    obtain ⟨t', hrun, hlinked⟩ := h.remove k
    exact ⟨t', _, _, congrArg (Option.map _) hrun, rfl, hlinked⟩
  | find k =>
    have hfind := (h.chain (calcHash k)).findFrom (h.count ▸ h.room) k (h.fuel _)
    rw [chainOf, lookup_filter fun x hx => decide_eq_true (congrArg calcHash hx)] at hfind
    refine ⟨t, _, _, congrArg (Option.map _) hfind, ?_, h⟩
    rw [Routes.step, Option.isSome_map]

end Linked

/-- **The table is the list of its routes.** Every run of calls answers, as the list does, and
leaves sixteen finite chains, each of them through older and older entries. -/
theorem routes_refine (calls : List Call) :
    ∃ t routes answers, Run.run step init calls = some (t, answers) ∧
      Run.run Routes.step (0, []) calls = some (routes, answers) ∧ t.entries.length ≤ 32 ∧
      ∀ hash, ∃ chain, Chain t.entries (t.hashTable hash) chain ∧ Older chain ∧
        ∀ x ∈ chain, x.index < t.entries.length := by
  have hinit : Linked init (0, []) := ⟨rfl, Nat.zero_le 32, .nil, fun _ => rfl⟩
  obtain ⟨t, routes, answers, hrun, hroutes, h⟩ := Run.run_refines (R := Linked) (fun _ => True)
    (fun _ _ call h _ => h.step call) calls hinit fun _ _ => trivial
  exact ⟨t, routes, answers, hrun, hroutes, h.count ▸ h.room, fun hash =>
    ⟨_, h.chain hash, h.older_chain hash, (h.chain hash).index_lt⟩⟩

end Cant.Diagnostic.RouteChains
