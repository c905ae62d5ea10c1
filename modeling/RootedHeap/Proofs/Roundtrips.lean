import RootedHeap.Config.Printing
import RootedHeap.Proofs.Overlays

/-!
A configuration comes back from its text. What `Config.text` writes is a text of the document that
sets every field, so reading it gives every field, whatever the numbers are, as long as the format
has them; and if it does not have one of them, nothing is written.
-/

namespace RootedHeap

open Toml

def Setting.datum : Setting → Datum
  | .number n => .integer n
  | .flag b => .boolean b
  | .name s => .text s

namespace Config

/-- The document that sets every field of a configuration. -/
def document (c : Config) : Document where
  root := []
  tables := c.settings.map fun part => (part.1, part.2.map fun field => (field.1, field.2.datum))

def numbers (c : Config) : List Nat :=
  [c.collector.heapSize, c.collector.cellSize, c.collector.maxPauseMillis, c.machine.maxCallDepth,
    c.workload.threads, c.workload.iterations, c.workload.listLength, c.workload.seed]

theorem isWritable_iff {c : Config} :
    c.isWritable = true ↔ ∀ n ∈ c.numbers, n ≤ Setting.greatest := by
  simp [isWritable, settings, numbers, Setting.isWritable, and_assoc]

/-! ### The document of a configuration -/

theorem number?_natural (n : Nat) : (Datum.integer n).number? = some n := by
  simp [Datum.number?]

theorem strategy?_name (x : Strategy) : (Datum.text x.name).strategy? = some x := by
  cases x <;> rfl

theorem level?_name (x : Level) : (Datum.text x.name).level? = some x := by
  cases x <;> rfl

/-- The document of a configuration says all of it. -/
theorem overlaid_document (c : Config) : c.document.overlaid = c := by
  have hover : ∀ {α : Type} {part key : String} {read : Datum → Option α} {standard a : α}
      {x : Datum}, c.document.said part key = some x → read x = some a →
      c.document.valueOr part key read standard = a := by
    intro α part key read standard a x hsaid hread
    rw [Document.valueOr, hsaid, Option.bind_some, hread, Option.getD_some]
  obtain ⟨collector, machine, workload, level⟩ := c
  simp only [Document.overlaid, Config.mk.injEq]
  refine ⟨?_, ?_, ?_, hover rfl (level?_name _)⟩
  · obtain ⟨heapSize, cellSize, strategy, maxPauseMillis⟩ := collector
    simp only [CollectorSection.mk.injEq]
    exact ⟨hover rfl (number?_natural _), hover rfl (number?_natural _),
      hover rfl (strategy?_name _), hover rfl (number?_natural _)⟩
  · obtain ⟨maxCallDepth, trace⟩ := machine
    simp only [MachineConfig.mk.injEq]
    exact ⟨hover rfl (number?_natural _), hover rfl rfl⟩
  · obtain ⟨threads, iterations, listLength, seed⟩ := workload
    simp only [Workload.Size.mk.injEq]
    exact ⟨hover rfl (number?_natural _), hover rfl (number?_natural _),
      hover rfl (number?_natural _), hover rfl (number?_natural _)⟩

theorem admissible_document (c : Config) : c.document.Admissible := by
  have hnumber : ∀ n : Nat, Kind.number.admits (.integer n) = true := fun n => by
    rw [Kind.admits, number?_natural]
    rfl
  have hstrategy : ∀ x : Strategy, Kind.strategy.admits (.text x.name) = true := fun x => by
    rw [Kind.admits, strategy?_name]
    rfl
  have hlevel : ∀ x : Level, Kind.level.admits (.text x.name) = true := fun x => by
    rw [Kind.admits, level?_name]
    rfl
  have hsaid : ∀ {part key : String} {kind : Kind} {y : Datum}, c.document.said part key = some y →
      kind.admits y = true → ∀ x ∈ c.document.said part key, kind.admits x = true := by
    intro part key kind y hsaid hy x hx
    obtain rfl : y = x := Option.some.inj (hsaid.symm.trans hx)
    exact hy
  simp only [Document.Admissible, known, List.forall_mem_cons]
  refine ⟨⟨hsaid rfl (hnumber _), hsaid rfl (hnumber _), hsaid rfl (hstrategy _),
    hsaid rfl (hnumber _), by simp⟩, ⟨hsaid rfl (hnumber _), hsaid rfl rfl, by simp⟩,
    ⟨hsaid rfl (hnumber _), hsaid rfl (hnumber _), hsaid rfl (hnumber _), hsaid rfl (hnumber _),
      by simp⟩, ⟨hsaid rfl (hlevel _), by simp⟩, by simp⟩

theorem distinct_document (c : Config) : c.document.Distinct := by
  constructor
  · show (["gc", "vm", "workload", "log"] : List String).Nodup
    decide
  · simp [document, settings]

/-! ### Its text -/

def row (field : String × Setting) : Option Toml.Item := some (.entry (field.1, field.2.datum))

theorem row_line {field : String × Setting} (hkey : Toml.Named field.1 field.1.toList)
    (hspelled : Spelled field.2.datum field.2.text.toList) :
    Row (row field) (field.2.line field.1).toList := by
  have hentry := Row.entry hkey (show Blanks [' '] by decide) (show Blanks [' '] by decide) hspelled
    (show Blanks [] by decide) .none
  simpa [row, Setting.line] using hentry

theorem row_header {x : String} (hx : Toml.Named x x.toList) :
    Row (some (.header x)) ("[" ++ x ++ "]").toList := by
  have hnone : Blanks [] := by decide
  have hheader := Row.header hnone hx hnone hnone .none
  simpa using hheader

theorem spelled_number {n : Nat} (hn : n ≤ Setting.greatest) :
    Spelled (Setting.number n).datum (Setting.number n).text.toList := by
  have htext : (Setting.number n).text.toList = Nat.toDigits 10 n := Nat.toList_repr
  rw [htext]
  refine .integer (.unsigned (natural_toDigits n)) ?_
  have hlt : (n : Int) < 0x8000000000000000 := by
    have : n ≤ 0x7FFFFFFFFFFFFFFF := hn
    omega
  simp [fits, hlt]

theorem spelled_flag (b : Bool) : Spelled (Setting.flag b).datum (Setting.flag b).text.toList := by
  cases b with
  | true => exact .yes
  | false => exact .no

theorem spelled_name {x : String}
    (hx : x.toList.all (fun c => isShown c && c != '"' && c != '\\') = true)
    (hquoted : (Text.quoted x).toList = '"' :: (x.toList ++ ['"'])) :
    Spelled (Setting.name x).datum (Setting.name x).text.toList := by
  have hspelled := Spelled.text (.basic (Basic.of_plain hx))
  rw [String.ofList_toList] at hspelled
  show Spelled (.text x) (Text.quoted x).toList
  rw [hquoted]
  exact hspelled

theorem spelled_strategy (x : Strategy) :
    Spelled (Setting.name x.name).datum (Setting.name x.name).text.toList := by
  cases x <;> exact spelled_name (by decide) (by decide)

theorem spelled_level (x : Level) :
    Spelled (Setting.name x.name).datum (Setting.name x.name).text.toList := by
  cases x <;> exact spelled_name (by decide) (by decide)

/-- Every value is spelled as the format has it. -/
theorem spelled_settings {c : Config} (hc : ∀ n ∈ c.numbers, n ≤ Setting.greatest) :
    ∀ part ∈ c.settings, ∀ field ∈ part.2, Spelled field.2.datum field.2.text.toList := by
  simp only [numbers, List.forall_mem_cons] at hc
  obtain ⟨hheap, hcell, hpause, hdepth, hthreads, hiterations, hlength, hseed, -⟩ := hc
  simp only [settings, List.forall_mem_cons]
  exact ⟨⟨spelled_number hheap, spelled_number hcell, spelled_strategy _, spelled_number hpause,
      by simp⟩, ⟨spelled_number hdepth, spelled_flag _, by simp⟩,
    ⟨spelled_number hthreads, spelled_number hiterations, spelled_number hlength,
      spelled_number hseed, by simp⟩, ⟨spelled_level _, by simp⟩, by simp⟩

/-- Every name may stand as a key without quotes. -/
theorem named_settings (c : Config) :
    ∀ part ∈ c.settings, Toml.Named part.1 part.1.toList ∧
      ∀ field ∈ part.2, Toml.Named field.1 field.1.toList := by
  let bare (x : String) : Prop := x.toList ≠ [] ∧ x.toList.all isKeyChar = true
  have hknown : ∀ part ∈ known, bare part.1 ∧ ∀ field ∈ part.2, bare field.1 := by decide
  have hnames : (c.settings.map fun part => (part.1, part.2.map Prod.fst)) =
      known.map fun part => (part.1, part.2.map Prod.fst) := rfl
  intro part hpart
  have hmem := List.mem_map_of_mem (f := fun part => (part.1, part.2.map Prod.fst)) hpart
  rw [hnames] at hmem
  obtain ⟨part', hpart', heq⟩ := List.mem_map.1 hmem
  obtain ⟨hname, hfields⟩ := Prod.mk.inj heq
  obtain ⟨hbare, hbares⟩ := hknown part' hpart'
  refine ⟨hname ▸ .of_bare hbare.1 hbare.2, fun field hfield => ?_⟩
  have hfield' := List.mem_map_of_mem (f := Prod.fst) hfield
  rw [← hfields] at hfield'
  obtain ⟨field', hmem', hfst⟩ := List.mem_map.1 hfield'
  exact hfst ▸ .of_bare (hbares field' hmem').1 (hbares field' hmem').2

/-- The rows of a section: its header and its settings. -/
def sectionRows (part : String × List (String × Setting)) : List (Option Toml.Item) :=
  some (.header part.1) :: part.2.map row

/-- The text of a configuration is one of its document. -/
theorem written_document {c : Config} (hc : ∀ n ∈ c.numbers, n ≤ Setting.greatest) :
    c.document.Written (String.join (c.lines.map (· ++ "\n"))).toList := by
  have hsection : ∀ part ∈ c.settings,
      List.Forall₂ (fun row l => Row row l.toList) (sectionRows part) (sectionLines part) := by
    intro part hpart
    obtain ⟨hname, hnames⟩ := named_settings c part hpart
    refine .cons (row_header hname) ?_
    rw [List.forall₂_map_left_iff, List.forall₂_map_right_iff, List.forall₂_same]
    exact fun field hfield =>
      row_line (hnames field hfield) (spelled_settings hc part hpart field hfield)
  have hgap : List.Forall₂ (fun row (l : String) => Row row l.toList) [none] [""] :=
    .cons (.empty .none) .nil
  simp only [settings, List.forall_mem_cons] at hsection
  obtain ⟨hcollector, hmachine, hworkload, hlevel, -⟩ := hsection
  exact .plain (.of_lines (List.rel_append hcollector <| List.rel_append hgap <|
    List.rel_append hmachine <| List.rel_append hgap <| List.rel_append hworkload <|
    List.rel_append hgap hlevel))

/-- A configuration whose numbers the format has is written, and comes back as it was from the text;
one with a number above them is not written. -/
theorem parse_text (c : Config) :
    ((∀ n ∈ c.numbers, n ≤ 9223372036854775807) →
        ∃ text, c.text = .ok text ∧ Config.parse text = .ok c) ∧
      ((∃ n ∈ c.numbers, 9223372036854775807 < n) → c.text = .error .unwritable) := by
  constructor
  · intro hc
    refine ⟨String.join (c.lines.map (· ++ "\n")), if_pos (isWritable_iff.2 hc), ?_⟩
    have hparse : Toml.parse (String.join (c.lines.map (· ++ "\n"))) = some c.document.entries :=
      Document.parse_eq (distinct_document c) (written_document hc)
    have hheld : c.document.HeldBy c.document.entries :=
      Document.heldBy_entries fun _ _ => List.not_mem_nil
    unfold parse
    rw [hparse, Option.bind_eq_bind, Option.bind_some,
      (ofEntries?_of_heldBy hheld).1 (admissible_document c), overlaid_document]
  · rintro ⟨n, hmem, hn⟩
    refine if_neg fun hwritable => ?_
    have hle : n ≤ 9223372036854775807 := isWritable_iff.1 hwritable n hmem
    omega

/-- A configuration with the least and the greatest number that the format has. -/
def extreme : Config where
  collector := ⟨0, 9223372036854775807, .bump, 1⟩
  machine := ⟨9223372036854775807, true⟩
  workload := ⟨0, 10, 9223372036854775806, 0⟩
  level := .error

/-- What is said of all configurations, said of one at the bounds and of one past them. -/
theorem parse_text_extreme :
    (∀ n ∈ extreme.numbers, n ≤ 9223372036854775807) ∧
      (∃ text, extreme.text = .ok text ∧ Config.parse text = .ok extreme) ∧
      { extreme with machine := ⟨9223372036854775808, true⟩ }.text = .error .unwritable := by
  have hbound : ∀ n ∈ extreme.numbers, n ≤ 9223372036854775807 := by decide
  exact ⟨hbound, (parse_text extreme).1 hbound,
    (parse_text { extreme with machine := ⟨9223372036854775808, true⟩ }).2
      ⟨9223372036854775808, by decide, by decide⟩⟩

end Config

end RootedHeap
