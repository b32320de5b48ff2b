/-
# `Stream` — scanners that may be fed piece by piece

A scanner looks at the bytes it has and either waits or commits to consuming `k` of them, possibly
emitting a message. The law that makes it safe to feed piece by piece is *stability*: a commitment
made on `x` is made, identically, on every extension of `x`. `Scanner` carries that law and the law
of progress as fields.

**Proved here.**

    scan of x ++ y  =  scan of x, then of its rest with y behind it    (`scan_append`)
    feeding pieces  =  scanning their concatenation                    (`feedAll_eq_scan`)
    the index loop over an array whose used part is x computes scan x  (`drain_eq_scan`)
    scanners that pass the places one of them comes to with the same
    messages emit the same                                             (`Each.scan_agree`)
-/
import Mathlib.Data.List.Basic

namespace Cant.Stream

open List

/-- A scanner over `α` emitting `β`: `next x = some (k, m)` commits to the first
`k` elements of `x`. -/
structure Scanner (α β : Type) where
  next : List α → Option (Nat × Option β)
  progress : ∀ {x k m}, next x = some (k, m) → 0 < k ∧ k ≤ x.length
  stable : ∀ {x k m} (y : List α), next x = some (k, m) → next (x ++ y) = some (k, m)

namespace Scanner

variable {α β : Type} (S : Scanner α β)

/-- At most `n` commitments. -/
def scanN : Nat → List α → List β × List α
  | 0, x => ([], x)
  | n + 1, x =>
    match S.next x with
    | none => ([], x)
    | some (k, m) => (m.toList ++ (scanN n (x.drop k)).1, (scanN n (x.drop k)).2)

/-- The messages emitted on `x` and the elements left over. Every commitment
consumes something, so `x.length` of them are enough. -/
def scan (x : List α) : List β × List α := S.scanN x.length x

/-! ## The two equations of `scan` -/

theorem scanN_mono : ∀ (n n' : Nat) (x : List α), x.length ≤ n → x.length ≤ n' →
    S.scanN n x = S.scanN n' x
  | n, n', x, hn, hn' => by
    cases hx : S.next x with
    | none => cases n <;> cases n' <;> simp only [scanN, hx]
    | some p =>
      obtain ⟨k, m⟩ := p
      obtain ⟨hpos, hle⟩ := S.progress hx
      have hdrop : (x.drop k).length = x.length - k := length_drop
      match n, n', hn, hn' with
      | 0, _, hn, _ => omega
      | _ + 1, 0, _, hn' => omega
      | n + 1, n' + 1, hn, hn' =>
        simp only [scanN, hx]
        rw [scanN_mono n n' (x.drop k) (by omega) (by omega)]

variable {x : List α}

theorem scan_of_none (h : S.next x = none) : S.scan x = ([], x) := by
  unfold scan
  cases x.length <;> simp only [scanN, h]

theorem scan_of_some {k : Nat} {m : Option β} (h : S.next x = some (k, m)) :
    S.scan x = (m.toList ++ (S.scan (x.drop k)).1, (S.scan (x.drop k)).2) := by
  obtain ⟨hpos, hle⟩ := S.progress h
  have hdrop : (x.drop k).length = x.length - k := length_drop
  unfold scan
  cases hn : x.length with
  | zero => omega
  | succ n =>
    simp only [scanN, h]
    rw [S.scanN_mono n (x.drop k).length (x.drop k) (by omega) .refl]

theorem next_scan_rest (x : List α) : S.next (S.scan x).2 = none := by
  induction h : x.length using Nat.strongRecOn generalizing x with
  | _ n ih =>
    cases hx : S.next x with
    | none => rw [S.scan_of_none hx]; exact hx
    | some p =>
      obtain ⟨k, m⟩ := p
      obtain ⟨hpos, hle⟩ := S.progress hx
      rw [S.scan_of_some hx]
      exact ih (x.drop k).length (by rw [length_drop]; omega) (x.drop k) rfl

/-! ## Piece by piece -/

/-- **Scanning does not look across the seam.** -/
theorem scan_append (x y : List α) :
    S.scan (x ++ y) = ((S.scan x).1 ++ (S.scan ((S.scan x).2 ++ y)).1,
      (S.scan ((S.scan x).2 ++ y)).2) := by
  induction h : x.length using Nat.strongRecOn generalizing x with
  | _ n ih =>
    cases hx : S.next x with
    | none =>
      rw [S.scan_of_none hx]
      rfl
    | some p =>
      obtain ⟨k, m⟩ := p
      obtain ⟨hpos, hle⟩ := S.progress hx
      -- the commitment on `x` is the commitment on `x ++ y`
      have hxy := S.scan_of_some (S.stable y hx)
      rw [drop_append_of_le_length hle] at hxy
      rw [hxy, S.scan_of_some hx, ih (x.drop k).length (by rw [length_drop]; omega) (x.drop k) rfl]
      simp

def feed (st : List β × List α) (piece : List α) : List β × List α :=
  (st.1 ++ (S.scan (st.2 ++ piece)).1, (S.scan (st.2 ++ piece)).2)

/-- **Feeding pieces is scanning their concatenation.** -/
theorem feedAll_eq_scan (pieces : List (List α)) :
    pieces.foldl S.feed ([], []) = S.scan pieces.flatten := by
  have key : ∀ (pieces : List (List α)) (ms : List β) (rest : List α), S.next rest = none →
      pieces.foldl S.feed (ms, rest) =
        (ms ++ (S.scan (rest ++ pieces.flatten)).1, (S.scan (rest ++ pieces.flatten)).2) := by
    intro pieces
    induction pieces with
    | nil =>
      intro ms rest h
      simp [S.scan_of_none h]
    | cons p ps ih =>
      intro ms rest _
      rw [foldl_cons, feed, ih _ _ (S.next_scan_rest _), flatten_cons,
        ← append_assoc, S.scan_append (rest ++ p), append_assoc]
  have hnil : S.next [] = none := by
    cases h : S.next [] with
    | none => rfl
    | some p =>
      have := S.progress h
      simp only [length_nil] at this
      omega
  simpa using key pieces [] [] hnil

/-! ## The loop a program runs -/

/-- The index loop: `body pos` is one pass at position `pos` — `none` for an
access out of bounds, `some none` to leave the loop, `some (some (k, m))` to
hand over `m` and go on at `pos + k`. -/
def drain (body : Nat → Option (Option (Nat × Option β))) : Nat → Nat → Option (Nat × List β)
  | 0, _ => none
  | fuel + 1, pos =>
    match body pos with
    | none => none
    | some none => some (pos, [])
    | some (some (k, m)) =>
      match drain body fuel (pos + k) with
      | none => none
      | some (p, ms) => some (p, m.toList ++ ms)

/-- **The loop computes `scan`.** If each pass over the used part `x` decides as
the scanner does on what is ahead, the loop ends, without an access out of
bounds, in front of the rest and has handed over the messages. -/
theorem drain_eq_scan {S : Scanner α β} {body : Nat → Option (Option (Nat × Option β))}
    (hbody : ∀ pos, pos ≤ x.length → body pos = some (S.next (x.drop pos))) :
    ∀ (fuel pos : Nat), pos ≤ x.length → x.length - pos < fuel →
      ∃ p, drain body fuel pos = some (p, (S.scan (x.drop pos)).1) ∧
        pos ≤ p ∧ p ≤ x.length ∧ x.drop p = (S.scan (x.drop pos)).2
  | 0, pos, _, hf => absurd hf (Nat.not_lt_zero _)
  | fuel + 1, pos, hpos, hf => by
    have hb := hbody pos hpos
    cases hn : S.next (x.drop pos) with
    | none =>
      rw [hn] at hb
      rw [S.scan_of_none hn]
      exact ⟨pos, by simp only [drain, hb], .refl, hpos, rfl⟩
    | some q =>
      obtain ⟨k, m⟩ := q
      obtain ⟨hk, hle⟩ := S.progress hn
      rw [length_drop] at hle
      rw [hn] at hb
      obtain ⟨p, hd, h₁, h₂, h₃⟩ := drain_eq_scan hbody fuel (pos + k) (by omega) (by omega)
      rw [S.scan_of_some hn, drop_drop]
      exact ⟨p, by simp only [drain, hb, hd], by omega, h₂, h₃⟩

/-! ## Two scanners -/

/-- `P` holds wherever a scan comes to. -/
inductive Each (P : List α → Prop) : List α → Prop
  | wait {x : List α} : S.next x = none → P x → Each P x
  | commit {x : List α} {k : Nat} {m : Option β} : S.next x = some (k, m) → P x →
      Each P (x.drop k) → Each P x

variable {S} in
/-- **Agreement.** If `T` emits what `S` does from each place `S` comes to up to the next one, the
two emit the same messages, however `T` gets there. -/
theorem Each.scan_agree {T : Scanner α β} {P : List α → Prop}
    (hwait : ∀ x, P x → S.next x = none → (T.scan x).1 = [])
    (hcommit : ∀ x k m, P x → S.next x = some (k, m) →
      (T.scan x).1 = m.toList ++ (T.scan (x.drop k)).1) (h : S.Each P x) :
    (T.scan x).1 = (S.scan x).1 := by
  induction h with
  | wait hnext hx => rw [S.scan_of_none hnext, hwait _ hx hnext]
  | commit hnext hx _ ih => rw [S.scan_of_some hnext, hcommit _ _ _ hx hnext, ih]

end Scanner

end Cant.Stream
