/-
# `Sweep` — a loop that removes entries as it goes

    for (uint32_t i = 0; i < count; i++)

over an array, where a round may rewrite the entry at `i`, or move the entries behind it over it,
lower `count` and say `i--`.

A round sees how many went before it and the whole array, and may have effects. `loop` is the
loop with its index, and returns nothing if it has not come to its end after so many rounds;
`sweep` goes over the entries once, in order. They are the same (`loop_eq`).
-/
import Mathlib.Data.UInt

namespace Cant.Sweep

open List

variable {α β : Type} (visit : Nat → List α → α → Option α × List β)

/-- The loop at index `i`, after `k` rounds, for so many rounds at most; an entry becomes `none` if
it is removed. -/
def loop : Nat → Nat → List α → UInt32 → Option (List α × List β)
  | 0, _, _, _ => none
  | fuel + 1, k, xs, i =>
    match xs[i.toNat]? with
    | none => some (xs, [])
    | some x =>
      let next := match (visit k xs x).1 with
        | some y => loop fuel (k + 1) (xs.set i.toNat y) (i + 1)
        | none => loop fuel (k + 1) (xs.eraseIdx i.toNat) (i - 1 + 1)
      next.map fun r => (r.1, (visit k xs x).2 ++ r.2)

/-- Once over the entries, those that stay so far in front. -/
def sweep : Nat → List α → List α → List α × List β
  | _, done, [] => (done, [])
  | k, done, x :: rest =>
    let round := visit k (done ++ x :: rest) x
    let r := sweep (k + 1) (done ++ round.1.toList) rest
    (r.1, round.2 ++ r.2)

theorem loop_sweep {fuel : Nat} (k : Nat) (done : List α) {rest : List α}
    (hfuel : rest.length < fuel) (hcount : done.length + rest.length < 2 ^ 32) :
    loop visit fuel k (done ++ rest) (.ofNat done.length) = some (sweep visit k done rest) := by
  induction rest generalizing fuel k done with
  | nil =>
    obtain ⟨fuel, rfl⟩ := Nat.exists_eq_succ_of_ne_zero (Nat.ne_zero_of_lt hfuel)
    have hi : (UInt32.ofNat done.length).toNat = done.length := UInt32.toNat_ofNat_of_lt' hcount
    rw [loop, hi, append_nil, getElem?_eq_none le_rfl, sweep]
  | cons x rest ih =>
    obtain ⟨fuel, rfl⟩ := Nat.exists_eq_succ_of_ne_zero (Nat.ne_zero_of_lt hfuel)
    rw [length_cons] at hfuel hcount
    have hi : (UInt32.ofNat done.length).toNat = done.length :=
      UInt32.toNat_ofNat_of_lt' (by omega : done.length < 2 ^ 32)
    have hx : (done ++ x :: rest)[done.length]? = some x := by simp
    rw [loop, sweep, hi, hx]
    cases hvisit : (visit k (done ++ x :: rest) x).1 with
    | some y =>
      have hnext := ih (k + 1) (done ++ [y]) (by omega : rest.length < fuel)
        (by rw [length_append, length_singleton]; omega)
      rw [length_append, UInt32.ofNat_add, append_assoc] at hnext
      have hset : (done ++ x :: rest).set done.length y = done ++ y :: rest := by simp
      simpa [hset, hvisit] using hnext
    | none =>
      have hnext := ih (k + 1) done (by omega : rest.length < fuel) (by omega)
      have herase : (done ++ x :: rest).eraseIdx done.length = done ++ rest := by
        simp [eraseIdx_append_of_length_le]
      simpa [herase, hvisit] using hnext

theorem loop_eq {fuel : Nat} {xs : List α} (hfuel : xs.length < fuel)
    (hcount : xs.length < 2 ^ 32) : loop visit fuel 0 xs 0 = some (sweep visit 0 [] xs) :=
  loop_sweep visit 0 [] hfuel (by simpa using hcount)

theorem sweep_eq {each : Nat → α → Option α × List β} (k : Nat) (done rest : List α) :
    sweep (fun k _ => each k) k done rest =
      (done ++ (rest.zipIdx k).filterMap (fun x => (each x.2 x.1).1),
        (rest.zipIdx k).flatMap fun x => (each x.2 x.1).2) := by
  induction rest generalizing k done with
  | nil => simp [sweep]
  | cons x rest ih =>
    rw [sweep, ih, zipIdx_cons, flatMap_cons, filterMap_cons]
    cases (each k x).1 with
    | none | some y => simp

theorem sweep_filterMap {each : α → Option α} (k : Nat) (done rest : List α) :
    (sweep (fun _ _ x => (each x, ([] : List β))) k done rest).1 = done ++ rest.filterMap each := by
  have hentries : ((rest.zipIdx k).map (·.1)).filterMap each = rest.filterMap each := by
    rw [zipIdx_map_fst]
  rw [filterMap_map] at hentries
  rw [sweep_eq, ← hentries]
  rfl

end Cant.Sweep
