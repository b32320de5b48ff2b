/-
# `Semantic` — the checks of ECU definitions (`analysis/semantic.c`, the symbol table of `ast.c`)

The name of an ECU is looked up and put into the symbol table, that of a signal is looked up only.
So nothing tells a signal from another one of its name, or from an ECU defined after it.
-/
import Mathlib.Data.List.Nodup

namespace Cant.Compiler.Semantic

open List

/-- A line and a column. -/
abbrev Pos := UInt32 × UInt32

/-- A declaration in an ECU; the protocol is `none` if it is no identifier. -/
inductive Declaration where
  | signalDef (pos : Pos) (name : String) (protocol : Option String)
  | other (pos : Pos)

def Declaration.signal : Declaration → Option String
  | .signalDef _ name _ => some name
  | .other _ => none

structure EcuDef where
  pos : Pos
  name : String
  declarations : List Declaration

def EcuDef.signals (e : EcuDef) : List String := e.declarations.filterMap Declaration.signal

inductive ASTNode where
  | ecuDef (ecu : EcuDef)
  | other (pos : Pos)

/-- The names in the symbol table, and the diagnostics. -/
structure Analyzer where
  symbols : List String := []
  diagnostics : List (String × Pos) := []

namespace Analyzer

def emitDiagnostic (a : Analyzer) (message : String) (pos : Pos) : Analyzer :=
  { a with diagnostics := a.diagnostics ++ [(message, pos)] }

/-- `symtable_lookup` searches from the last symbol back. -/
def symtableLookup (a : Analyzer) (name : String) : Option String :=
  a.symbols.reverse.find? (· == name)

def checkSignalDefinition (a : Analyzer) (pos : Pos) (name : String) (protocol : Option String) :
    Analyzer × Bool :=
  if (a.symtableLookup name).isSome then
    (a.emitDiagnostic "Duplicate signal definition" pos, false)
  else match protocol with
    | some p =>
      if p = "CAN" ∨ p = "FlexRay" then (a, true)
      else (a.emitDiagnostic "Invalid protocol type" pos, false)
    | none => (a.emitDiagnostic "Expected protocol identifier" pos, false)

/-- The loop of `check_ecu_definition`. -/
def checkDeclarations (a : Analyzer) : List Declaration → Analyzer × Bool
  | [] => (a, true)
  | .signalDef pos name protocol :: rest =>
    let (a', ok) := a.checkSignalDefinition pos name protocol
    if ok then a'.checkDeclarations rest else (a', false)
  | .other pos :: _ => (a.emitDiagnostic "Invalid declaration in ECU" pos, false)

def checkEcuDefinition (a : Analyzer) (e : EcuDef) : Analyzer × Bool :=
  if (a.symtableLookup e.name).isSome then
    (a.emitDiagnostic "Duplicate ECU definition" e.pos, false)
  else { a with symbols := a.symbols ++ [e.name] }.checkDeclarations e.declarations

def check (a : Analyzer) : ASTNode → Analyzer × Bool
  | .ecuDef e => a.checkEcuDefinition e
  | .other pos => (a.emitDiagnostic "Unexpected top-level declaration" pos, false)

/-- Every `analyzer_check` of the definitions, in their order, returned true. -/
def accepts (a : Analyzer) : List EcuDef → Bool
  | [] => true
  | e :: rest => (a.check (.ecuDef e)).2 && (a.check (.ecuDef e)).1.accepts rest

variable {a : Analyzer} {name : String}

theorem not_mem_of_lookup (h : ¬ (a.symtableLookup name).isSome) : name ∉ a.symbols := by
  simpa [symtableLookup] using h

theorem checkSignalDefinition_true {pos : Pos} {protocol : Option String} :
    (a.checkSignalDefinition pos name protocol).2 = true →
      a.checkSignalDefinition pos name protocol = (a, true) ∧ name ∉ a.symbols := by
  fun_cases checkSignalDefinition a pos name protocol with
  | case2 hlookup => exact fun _ => ⟨rfl, not_mem_of_lookup hlookup⟩
  | case1 | case3 | case4 => exact nofun

theorem checkDeclarations_true {ds : List Declaration} (h : (a.checkDeclarations ds).2 = true) :
    (a.checkDeclarations ds).1 = a ∧ ∀ x ∈ ds.filterMap Declaration.signal, x ∉ a.symbols := by
  induction ds with
  | nil => exact ⟨rfl, nofun⟩
  | cons d rest ih =>
    cases d with
    | other pos => cases h
    | signalDef pos name protocol =>
      have hsignal : (a.checkSignalDefinition pos name protocol).2 = true := by
        by_contra hfalse
        simp [checkDeclarations, hfalse] at h
      obtain ⟨heq, hname⟩ := checkSignalDefinition_true hsignal
      simp only [checkDeclarations, heq, if_true] at h ⊢
      obtain ⟨hsame, hrest⟩ := ih h
      exact ⟨hsame, forall_mem_cons.mpr ⟨hname, hrest⟩⟩

theorem check_true {e : EcuDef} (h : (a.check (.ecuDef e)).2 = true) :
    e.name ∉ a.symbols ∧ (a.check (.ecuDef e)).1.symbols = a.symbols ++ [e.name] ∧
      ∀ x ∈ e.signals, x ∉ a.symbols ++ [e.name] := by
  rw [check, checkEcuDefinition] at h ⊢
  split at h
  case isTrue => cases h
  case isFalse hlookup =>
    rw [if_neg hlookup]
    obtain ⟨heq, hsignals⟩ := checkDeclarations_true h
    exact ⟨not_mem_of_lookup hlookup, congrArg symbols heq, hsignals⟩

theorem accepts_spec {es : List EcuDef} : ∀ {a : Analyzer}, a.accepts es = true →
    (∀ e ∈ es, e.name ∉ a.symbols ∧ ∀ x ∈ e.signals, x ∉ a.symbols ++ [e.name]) ∧
      es.Pairwise fun d e => d.name ≠ e.name ∧ d.name ∉ e.signals := by
  induction es with
  | nil => exact fun _ => ⟨nofun, .nil⟩
  | cons e rest ih =>
    intro a h
    obtain ⟨he, hrest⟩ := Bool.and_eq_true_iff.mp h
    obtain ⟨hname, hsymbols, hsignals⟩ := check_true he
    obtain ⟨hall, hpairs⟩ := ih hrest
    simp only [hsymbols, mem_append, mem_singleton, not_or] at hall hsignals ⊢
    refine ⟨forall_mem_cons.mpr ⟨⟨hname, hsignals⟩, fun d hd => ?_⟩,
      pairwise_cons.mpr ⟨fun d hd => ?_, hpairs⟩⟩
    · exact ⟨(hall d hd).1.1, fun x hx => ⟨((hall d hd).2 x hx).1.1, ((hall d hd).2 x hx).2⟩⟩
    · exact ⟨fun h => (hall d hd).1.2 h.symm, fun h => ((hall d hd).2 _ h).1.2 rfl⟩

/-- **If every check returned true, the names are distinct just when those of the signals are and no
ECU has the name of a signal defined before it.** -/
theorem accepts_nodup_iff {es : List EcuDef} (h : Analyzer.accepts {} es = true) :
    (es.map EcuDef.name ++ es.flatMap EcuDef.signals).Nodup ↔
      (es.flatMap EcuDef.signals).Nodup ∧ es.Pairwise fun d e => e.name ∉ d.signals := by
  obtain ⟨hall, hpairs⟩ := accepts_spec h
  rw [nodup_append]
  constructor
  · rintro ⟨-, hsignals, hdisjoint⟩
    refine ⟨hsignals, List.Pairwise.imp_of_mem (fun hd he _ hmem => ?_) hpairs⟩
    exact hdisjoint _ (mem_map_of_mem he) _ (mem_flatMap_of_mem hd hmem) rfl
  · rintro ⟨hsignals, hlater⟩
    have hapart : ∀ d ∈ es, ∀ e ∈ es, e.name ∉ d.signals := List.Pairwise.forall_of_forall_of_flip
        (fun e he hmem => (hall e he).2 _ hmem (by simp)) hlater (hpairs.imp And.right)
    refine ⟨pairwise_map.mpr (hpairs.imp And.left), hsignals, ?_⟩
    rintro _ hx y hy rfl
    obtain ⟨e, he, rfl⟩ := mem_map.mp hx
    obtain ⟨d, hd, hmem⟩ := mem_flatMap.mp hy
    exact hapart d hd e he hmem

/-- An ECU with signals of these names on the CAN bus. -/
def ecu (signals : List String) : EcuDef :=
  ⟨(1, 1), "E", signals.map (.signalDef (1, 1) · (some "CAN"))⟩

theorem accepts_nodup_two :
    ([ecu ["s"], { ecu ["t", "u"] with name := "F" }].map EcuDef.name ++
      [ecu ["s"], { ecu ["t", "u"] with name := "F" }].flatMap EcuDef.signals).Nodup :=
  (accepts_nodup_iff (by decide)).mpr (by decide)

/-- Two signals of one name are accepted. -/
theorem two_signals_accepted : Analyzer.accepts {} [ecu ["s", "s"]] = true ∧
    ¬ ([ecu ["s", "s"]].map EcuDef.name ++ [ecu ["s", "s"]].flatMap EcuDef.signals).Nodup := by
  decide

end Analyzer

end Cant.Compiler.Semantic
