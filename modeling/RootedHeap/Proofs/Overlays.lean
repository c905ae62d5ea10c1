import RootedHeap.Config.Reading
import RootedHeap.Proofs.Documents

/-!
A configuration from a document that says some of it. Whatever fields a document sets, in whatever
order and among whatever else, the configuration has these fields from the document and all others
from the standard configuration; if the document gives a field a datum that the field does not
have, there is no configuration. `Config.parse_overlaid` says so for every text of the document.
-/

namespace RootedHeap

open Toml

/-! ### What a document says -/

namespace Toml.Datum

def number? : Datum → Option Nat
  | .integer n => if 0 ≤ n then some n.toNat else none
  | _ => none

def flag? : Datum → Option Bool
  | .boolean b => some b
  | _ => none

def strategy? : Datum → Option Strategy
  | .text s => [Strategy.bump, .markSweep].find? fun strategy => strategy.name == s
  | _ => none

def level? : Datum → Option Level
  | .text s => [Level.trace, .debug, .info, .warn, .error].find? fun level => level.name == s
  | _ => none

theorem natural?_value (x : Datum) : x.value.natural? = x.number? := by cases x <;> rfl

theorem boolean?_value (x : Datum) : x.value.boolean? = x.flag? := by cases x <;> rfl

theorem strategy?_value (x : Datum) : (x.value.name? >>= Strategy.ofName?) = x.strategy? := by
  cases x with
  | integer n => rfl
  | boolean b => rfl
  | text s =>
    show Strategy.ofName? s = _
    unfold Strategy.ofName? strategy?
    split
    · rfl
    · rfl
    · rename_i hbump hsweep
      have hbump : ("bump" == s) = false := by simpa using Ne.symm hbump
      have hsweep : ("mark-sweep" == s) = false := by simpa using Ne.symm hsweep
      simp only [Strategy.name, List.find?_cons, hbump, hsweep, List.find?_nil]

theorem level?_value (x : Datum) : (x.value.name? >>= Level.ofName?) = x.level? := by
  cases x <;> rfl

end Toml.Datum

inductive Kind where
  | number | flag | strategy | level

/-- Whether a field of a kind has a datum. -/
def Kind.admits : Kind → Datum → Bool
  | .number, x => x.number?.isSome
  | .flag, x => x.flag?.isSome
  | .strategy, x => x.strategy?.isSome
  | .level, x => x.level?.isSome

/-- The sections of a configuration with the kinds of their fields. -/
def Config.known : List (String × List (String × Kind)) :=
  [("gc", [("heap_size", .number), ("cell_size", .number), ("strategy", .strategy),
      ("max_pause_ms", .number)]),
    ("vm", [("max_call_depth", .number), ("trace_execution", .flag)]),
    ("workload", [("threads", .number), ("iterations", .number), ("list_length", .number),
      ("seed", .number)]),
    ("log", [("level", .level)])]

namespace Toml.Document

/-- What a document says of a field. -/
def said (d : Document) (part key : String) : Option Datum :=
  (d.tables.lookup part).bind fun pairs => pairs.lookup key

/-- The value of a field: what the document says, or else the standard. -/
def valueOr {α : Type} (d : Document) (part key : String) (read : Datum → Option α)
    (standard : α) : α :=
  ((d.said part key).bind read).getD standard

/-- Every field that a document sets has a datum of its kind. -/
def Admissible (d : Document) : Prop :=
  ∀ part ∈ Config.known, ∀ field ∈ part.2, ∀ x ∈ d.said part.1 field.1, field.2.admits x = true

instance (d : Document) : Decidable d.Admissible :=
  inferInstanceAs (Decidable (∀ part ∈ Config.known, ∀ field ∈ part.2,
    ∀ x ∈ d.said part.1 field.1, field.2.admits x = true))

/-- The standard configuration with what a document says. -/
def overlaid (d : Document) : Config :=
  let standard := Config.standard
  { collector :=
      { heapSize := d.valueOr "gc" "heap_size" Datum.number? standard.collector.heapSize
        cellSize := d.valueOr "gc" "cell_size" Datum.number? standard.collector.cellSize
        strategy := d.valueOr "gc" "strategy" Datum.strategy? standard.collector.strategy
        maxPauseMillis :=
          d.valueOr "gc" "max_pause_ms" Datum.number? standard.collector.maxPauseMillis }
    machine :=
      { maxCallDepth := d.valueOr "vm" "max_call_depth" Datum.number? standard.machine.maxCallDepth
        trace := d.valueOr "vm" "trace_execution" Datum.flag? standard.machine.trace }
    workload :=
      { threads := d.valueOr "workload" "threads" Datum.number? standard.workload.threads
        iterations := d.valueOr "workload" "iterations" Datum.number? standard.workload.iterations
        listLength := d.valueOr "workload" "list_length" Datum.number? standard.workload.listLength
        seed := d.valueOr "workload" "seed" Datum.number? standard.workload.seed }
    level := d.valueOr "log" "level" Datum.level? standard.level }

end Toml.Document

/-! ### Fields taken over -/

/-- A table says of some keys what a document does. -/
def Agrees (inner : Entries) (said : String → Option Datum) (keys : List String) : Prop :=
  ∀ key ∈ keys, inner.get? key = (said key).map Datum.value

namespace Field

variable {σ α : Type} {said : String → Option Datum}

/-- A field of some key that takes data of some kind, whatever else the section holds. -/
structure Takes (field : Field σ) (entry : String × Kind) : Prop where
  key : field.key = entry.1
  admits : ∀ x s, (field.take x.value s).isSome = entry.2.admits x

theorem takes_of (kind : Kind) (read : Value → Option α)
    (hread : ∀ x : Datum, (read x.value).isSome = kind.admits x) {key : String} {set : α → σ → σ} :
    (of key read set).Takes (key, kind) :=
  ⟨rfl, fun x _ => by simp [of, hread]⟩

/-- A section with what is said of one of its fields. -/
def overlay (said : String → Option Datum) (s : σ) (field : Field σ) : σ :=
  ((said field.key).bind fun x => field.take x.value s).getD s

theorem overlay_of (read : Value → Option α) {r : Datum → Option α}
    (hread : ∀ x : Datum, read x.value = r x) {key : String} {set : α → σ → σ} {s : σ} :
    overlay said s (of key read set) = ((said key).bind r).elim s fun a => set a s := by
  show ((said key).bind fun x => (read x.value).map fun a => set a s).getD s = _
  simp only [hread]
  cases said key with
  | none => rfl
  | some x =>
    show ((r x).map fun a => set a s).getD s = (r x).elim s fun a => set a s
    cases r x <;> rfl

theorem takeFrom_eq {entries : Entries} {field : Field σ} {entry : String × Kind}
    (htakes : field.Takes entry) (hsaid : entries.get? entry.1 = (said entry.1).map Datum.value)
    (s : σ) :
    field.takeFrom entries s =
      if ∀ x ∈ said entry.1, entry.2.admits x = true then some (overlay said s field)
      else none := by
  unfold takeFrom overlay
  rw [htakes.key, hsaid]
  cases said entry.1 with
  | none => simp
  | some x =>
    have hadmits := htakes.admits x s
    cases htake : field.take x.value s <;> simp_all

/-- A section is taken over from a table field by field: if what is said of each field is of its
kind then each field comes to that, and otherwise nothing is taken over. -/
theorem takeAll_eq {entries : Entries} {fields : List (Field σ)} {kinds : List (String × Kind)}
    (htakes : List.Forall₂ Takes fields kinds) (hagrees : Agrees entries said (kinds.map Prod.fst))
    (s : σ) :
    takeAll fields entries s =
      if ∀ entry ∈ kinds, ∀ x ∈ said entry.1, entry.2.admits x = true then
        some (fields.foldl (overlay said) s)
      else none := by
  induction htakes generalizing s with
  | nil => simp [takeAll]
  | @cons field entry fields kinds hfield _ ih =>
    obtain ⟨hkey, hkeys⟩ := List.forall_mem_cons.1 hagrees
    have htaken := takeFrom_eq hfield hkey s
    simp only [takeAll, List.foldlM_cons, List.foldl_cons, List.forall_mem_cons]
    by_cases hadmits : ∀ x ∈ said entry.1, entry.2.admits x = true
    · rw [htaken, if_pos hadmits]
      exact (ih hkeys _).trans (if_congr (and_iff_right hadmits).symm rfl rfl)
    · rw [htaken, if_neg hadmits, if_neg fun h => hadmits h.1]
      rfl

end Field

/-! ### Sections -/

/-- Entries hold what a document says of a section: nothing, or a table that says the same of the
fields of the section. Keys that a configuration does not know do not matter. -/
inductive Holds (keys : List String) : Option (List Pair) → Option Value → Prop
  | missing : Holds keys none none
  | table {origin : Origin} {inner : Entries} {pairs : List Pair}
      (agrees : Agrees inner (fun key => pairs.lookup key) keys) :
    Holds keys (some pairs) (some (.table origin inner))

/-- Entries hold what a document says of all sections of a configuration, however it was written. -/
def Toml.Document.HeldBy (d : Document) (entries : Entries) : Prop :=
  ∀ part ∈ Config.known, Holds (part.2.map Prod.fst) (d.tables.lookup part.1) (entries.get? part.1)

/-- A section is taken over as a whole. -/
theorem Toml.Document.takeFrom_section {σ : Type} {d : Document} {entries : Entries}
    {part : String} {kinds : List (String × Kind)} {fields : List (Field σ)} (get : Config → σ)
    (set : σ → Config → Config) (hset : ∀ c, set (get c) c = c)
    (htakes : List.Forall₂ Field.Takes fields kinds)
    (hholds : Holds (kinds.map Prod.fst) (d.tables.lookup part) (entries.get? part)) (c : Config) :
    Field.takeFrom entries c
        ⟨part, fun v c => Field.takeSection fields v (get c) >>= fun s => pure (set s c)⟩ =
      if ∀ entry ∈ kinds, ∀ x ∈ d.said part entry.1, entry.2.admits x = true then
        some (set (fields.foldl (Field.overlay (d.said part)) (get c)) c)
      else none := by
  unfold Field.takeFrom said
  dsimp only
  generalize entries.get? part = found at hholds
  generalize d.tables.lookup part = pairs at hholds
  cases hholds with
  | missing =>
    have hidle : fields.foldl (Field.overlay fun _ => none) (get c) = get c :=
      List.foldl_fixed' (fun _ => rfl) fields
    simp [hidle, hset]
  | @table origin inner pairs agrees =>
    show (Field.takeAll fields inner (get c) >>= fun s => pure (set s c)) = _
    rw [Field.takeAll_eq htakes agrees]
    split
    · next hadmits => exact (if_pos hadmits).symm
    · next hspoils => exact (if_neg hspoils).symm

/-! ### Documents -/

/-- The fields of all sections take data of the kinds that are known. -/
theorem Config.takes_known :
    ∃ collector machine workload level,
      Config.known =
        [("gc", collector), ("vm", machine), ("workload", workload), ("log", level)] ∧
      List.Forall₂ Field.Takes CollectorSection.fields collector ∧
      List.Forall₂ Field.Takes MachineConfig.fields machine ∧
      List.Forall₂ Field.Takes Workload.Size.fields workload ∧
      List.Forall₂ Field.Takes Level.fields level := by
  refine ⟨_, _, _, _, rfl, ?_⟩
  simp only [CollectorSection.fields, MachineConfig.fields, Workload.Size.fields, Level.fields,
    List.forall₂_cons, List.forall₂_nil_left_iff, and_self,
    Field.takes_of .number Value.natural? fun x => congrArg _ (Datum.natural?_value x),
    Field.takes_of .flag Value.boolean? fun x => congrArg _ (Datum.boolean?_value x),
    Field.takes_of .strategy (fun v => v.name? >>= Strategy.ofName?) fun x =>
      congrArg _ (Datum.strategy?_value x),
    Field.takes_of .level (fun v => v.name? >>= Level.ofName?) fun x =>
      congrArg _ (Datum.level?_value x)]

/-- What a document says, laid over the standard field by field. -/
theorem Toml.Document.overlaid_eq (d : Document) :
    d.overlaid =
      { collector :=
          CollectorSection.fields.foldl (Field.overlay (d.said "gc")) Config.standard.collector
        machine := MachineConfig.fields.foldl (Field.overlay (d.said "vm")) Config.standard.machine
        workload :=
          Workload.Size.fields.foldl (Field.overlay (d.said "workload")) Config.standard.workload
        level := Level.fields.foldl (Field.overlay (d.said "log")) Config.standard.level } := by
  simp only [CollectorSection.fields, MachineConfig.fields, Workload.Size.fields, Level.fields,
    List.foldl_cons, List.foldl_nil, Field.overlay_of _ Datum.natural?_value,
    Field.overlay_of _ Datum.boolean?_value,
    Field.overlay_of (fun v => v.name? >>= Strategy.ofName?) Datum.strategy?_value,
    Field.overlay_of (fun v => v.name? >>= Level.ofName?) Datum.level?_value, overlaid, valueOr]
  -- one case for each choice of the fields of a section that are said
  congr 1
  · cases (d.said "gc" "heap_size").bind Datum.number? <;>
      cases (d.said "gc" "cell_size").bind Datum.number? <;>
      cases (d.said "gc" "strategy").bind Datum.strategy? <;>
      cases (d.said "gc" "max_pause_ms").bind Datum.number? <;> rfl
  · cases (d.said "vm" "max_call_depth").bind Datum.number? <;>
      cases (d.said "vm" "trace_execution").bind Datum.flag? <;> rfl
  · cases (d.said "workload" "threads").bind Datum.number? <;>
      cases (d.said "workload" "iterations").bind Datum.number? <;>
      cases (d.said "workload" "list_length").bind Datum.number? <;>
      cases (d.said "workload" "seed").bind Datum.number? <;> rfl
  · cases (d.said "log" "level").bind Datum.level? <;> rfl

/-- What entries come to: the standard with what the document says, if that is admissible. -/
theorem ofEntries?_of_heldBy {d : Document} {entries : Entries} (h : d.HeldBy entries) :
    (d.Admissible → Config.ofEntries? entries = some d.overlaid) ∧
      (¬ d.Admissible → Config.ofEntries? entries = none) := by
  obtain ⟨collector, machine, workload, level, hknown, hcollector, hmachine, hworkload, hlevel⟩ :=
    Config.takes_known
  have hfits : d.Admissible ↔
      (∀ entry ∈ collector, ∀ x ∈ d.said "gc" entry.1, entry.2.admits x = true) ∧
      (∀ entry ∈ machine, ∀ x ∈ d.said "vm" entry.1, entry.2.admits x = true) ∧
      (∀ entry ∈ workload, ∀ x ∈ d.said "workload" entry.1, entry.2.admits x = true) ∧
      ∀ entry ∈ level, ∀ x ∈ d.said "log" entry.1, entry.2.admits x = true := by
    simp only [Document.Admissible, hknown, List.forall_mem_cons, List.not_mem_nil, false_implies,
      implies_true, and_true]
  simp only [Document.HeldBy, hknown, List.forall_mem_cons, List.not_mem_nil, false_implies,
    implies_true, and_true] at h
  obtain ⟨hgc, hvm, hwork, hlog⟩ := h
  have hgc := d.takeFrom_section (·.collector) (fun s c => { c with collector := s }) (fun _ => rfl)
    hcollector hgc
  have hvm := d.takeFrom_section (·.machine) (fun s c => { c with machine := s }) (fun _ => rfl)
    hmachine hvm
  have hwork := d.takeFrom_section (·.workload) (fun s c => { c with workload := s })
    (fun _ => rfl) hworkload hwork
  have hlog := d.takeFrom_section (·.level) (fun s c => { c with level := s }) (fun _ => rfl)
    hlevel hlog
  simp only [Config.ofEntries?, Config.fields, Field.takeAll, List.foldlM_cons, List.foldlM_nil,
    bind_pure]
  constructor
  · intro hadmissible
    obtain ⟨hfirst, hsecond, hthird, hfourth⟩ := hfits.1 hadmissible
    rw [d.overlaid_eq]
    exact Option.bind_eq_some_iff.2 ⟨_, (hgc _).trans (if_pos hfirst),
      Option.bind_eq_some_iff.2 ⟨_, (hvm _).trans (if_pos hsecond),
      Option.bind_eq_some_iff.2 ⟨_, (hwork _).trans (if_pos hthird),
      (hlog _).trans (if_pos hfourth)⟩⟩⟩
  · intro hspoilt
    refine Option.eq_none_iff_forall_ne_some.2 fun c hc => hspoilt (hfits.2 ?_)
    obtain ⟨c₁, hfirst, hc⟩ := Option.bind_eq_some_iff.1 hc
    obtain ⟨c₂, hsecond, hc⟩ := Option.bind_eq_some_iff.1 hc
    obtain ⟨c₃, hthird, hfourth⟩ := Option.bind_eq_some_iff.1 hc
    rw [hgc] at hfirst
    rw [hvm] at hsecond
    rw [hwork] at hthird
    rw [hlog] at hfourth
    exact ⟨(Option.ite_none_right_eq_some.1 hfirst).1, (Option.ite_none_right_eq_some.1 hsecond).1,
      (Option.ite_none_right_eq_some.1 hthird).1, (Option.ite_none_right_eq_some.1 hfourth).1⟩

theorem lookup_map_values {β γ : Type} (f : β → γ) (l : List (String × β)) (key : String) :
    (l.map fun entry => (entry.1, f entry.2)).lookup key = (l.lookup key).map f := by
  induction l with
  | nil => rfl
  | cons entry l ih =>
    obtain ⟨x, b⟩ := entry
    simp only [List.map_cons, List.lookup_cons, ih]
    cases key == x <;> rfl

/-- The entries of a document hold what it says of the sections. -/
theorem Toml.Document.heldBy_entries {d : Document}
    (hroot : ∀ part ∈ Config.known, part.1 ∉ d.root.map Prod.fst) : d.HeldBy d.entries := by
  intro part hpart
  have hnone : (valued d.root).lookup part.1 = none :=
    get?_eq_none (by simpa [valued, Function.comp_def] using hroot part hpart)
  rw [Entries.get?, entries, List.lookup_append, hnone, Option.none_or,
    lookup_map_values fun pairs => Value.table .header (valued pairs)]
  cases d.tables.lookup part.1 with
  | none => exact .missing
  | some pairs => exact .table fun key _ => lookup_map_values Datum.value pairs key

/-- A configuration takes from a document the fields that it sets, and all others from the standard.
The document may set any fields, its tables and their keys may stand in any order, and with any
other keys and tables; a field that it gives a datum of another kind spoils the whole. This holds
for every layout of the document, and for any other text that is read as the same sections. -/
theorem Config.parse_overlaid {d : Document} (hdistinct : d.Distinct)
    (hroot : ∀ part ∈ Config.known, part.1 ∉ d.root.map Prod.fst) {text : String}
    (htext : d.Written text.toList ∨ ∃ entries, Toml.parse text = some entries ∧ d.HeldBy entries) :
    (d.Admissible → Config.parse text = .ok d.overlaid) ∧
      (¬ d.Admissible → Config.parse text = .error .malformed) := by
  obtain ⟨entries, hentries, hheld⟩ :
      ∃ entries, Toml.parse text = some entries ∧ d.HeldBy entries := by
    rcases htext with hwritten | hread
    · exact ⟨d.entries, Document.parse_eq hdistinct hwritten, Document.heldBy_entries hroot⟩
    · exact hread
  obtain ⟨hadmitted, hspoilt⟩ := ofEntries?_of_heldBy hheld
  unfold Config.parse
  rw [hentries, Option.bind_eq_bind, Option.bind_some]
  constructor
  · intro hadmissible
    rw [hadmitted hadmissible]
  · intro hnot
    rw [hspoilt hnot]

/-- A document with an entry of its own, a table that no configuration knows, and two sections. -/
def sparse : Document where
  root := [("seed", .integer 7)]
  tables :=
    [("log", [("level", .text "warn")]), ("x", [("y", .integer (-10))]),
      ("gc", [("heap_size", .integer 10)])]

/-- A text of the document, with both kinds of quotes and of line ends. -/
def sparseText : String :=
  "seed = 7\n[ log ] # all\r\nlevel = 'warn'\n\n[x]\ny =-10\n[gc]\n\"heap_size\" = 1_0"

theorem written_sparse : sparse.Written sparseText.toList := by
  have hnone : Blanks [] := by decide
  have hone : Blanks [' '] := by decide
  have hseed : Row (some (.entry ("seed", .integer 7))) "seed = 7".toList :=
    .entry (.of_bare (by decide) (by decide)) hone hone
      (.integer (.unsigned (natural_toDigits 7)) (by decide)) hnone .none
  have hlog : Row (some (.header "log")) "[ log ] # all".toList :=
    .header hone (.of_bare (by decide) (by decide)) hone hone
      (.comment (List.all_eq_true.1 (by decide)))
  have hlevel : Row (some (.entry ("level", .text "warn"))) "level = 'warn'".toList :=
    have hquoted : Quoted "warn" "'warn'".toList :=
      .literal (List.all_eq_true.1 (by decide)) (by simp)
    .entry (.of_bare (by decide) (by decide)) hone hone (.text hquoted) hnone .none
  have hx : Row (some (.header "x")) "[x]".toList :=
    .header hnone (.of_bare (by decide) (by decide)) hnone hnone .none
  have hy : Row (some (.entry ("y", .integer (-10)))) "y =-10".toList :=
    .entry (.of_bare (by decide) (by decide)) hone hnone
      (.integer (.minus (natural_toDigits 10)) (by decide)) hnone .none
  have hgc : Row (some (.header "gc")) "[gc]".toList :=
    .header hnone (.of_bare (by decide) (by decide)) hnone hnone .none
  have hsize : Row (some (.entry ("heap_size", .integer 10))) "\"heap_size\" = 1_0".toList :=
    have hquoted : Quoted "heap_size" "\"heap_size\"".toList := .basic (.of_plain (by decide))
    have hten : Natural 10 ['1', '_', '0'] :=
      .digits (.mk (d := '1') (by decide) (.spaced (d := '0') (by decide) .nil)) (by decide)
    .entry (.quoted hquoted) hone hone (.integer (.unsigned hten) (by decide)) hnone .none
  exact .plain (.next hnone hseed .feed <| .next hnone hlog .returned <|
    .next hnone hlevel .feed <| .next hnone (.empty .none) .feed <| .next hnone hx .feed <|
    .next hnone hy .feed <| .next hnone hgc .feed <| .last hnone hsize)

/-- A document that gives a truth value a number. -/
def spoilt : Document := ⟨[], [("vm", [("trace_execution", .integer 1)])]⟩

/-- What is said of all documents, said of one that sets two fields and of one that spoils a
field. -/
theorem parse_overlaid_sparse :
    sparse.Distinct ∧ (∀ part ∈ Config.known, part.1 ∉ sparse.root.map Prod.fst) ∧
      sparse.Written sparseText.toList ∧ sparse.Admissible ∧
      Config.parse sparseText =
        .ok { Config.standard with
          collector := { Config.standard.collector with heapSize := 10 }, level := .warn } ∧
      ¬ spoilt.Admissible ∧
      Config.parse "[vm]\ntrace_execution = 1\n" = .error .malformed := by
  have hdistinct : sparse.Distinct := ⟨by decide, by decide⟩
  have hroot : ∀ part ∈ Config.known, part.1 ∉ sparse.root.map Prod.fst := by decide
  have hadmissible : sparse.Admissible := by decide
  have hspoilt : ¬ spoilt.Admissible := by decide
  have hwritten : spoilt.Written "[vm]\ntrace_execution = 1\n".toList := by
    have hnone : Blanks [] := by decide
    have hone : Blanks [' '] := by decide
    have hvm : Row (some (.header "vm")) "[vm]".toList :=
      .header hnone (.of_bare (by decide) (by decide)) hnone hnone .none
    have htrace :
        Row (some (.entry ("trace_execution", .integer 1))) "trace_execution = 1".toList :=
      .entry (.of_bare (by decide) (by decide)) hone hone
        (.integer (.unsigned (natural_toDigits 1)) (by decide)) hnone .none
    exact .plain (.next hnone hvm .feed <| .next hnone htrace .feed <| .last hnone (.empty .none))
  refine ⟨hdistinct, hroot, written_sparse, hadmissible, ?_, hspoilt, ?_⟩
  · exact (Config.parse_overlaid hdistinct hroot (.inl written_sparse)).1 hadmissible
  · exact (Config.parse_overlaid ⟨by decide, by decide⟩ (by decide) (.inl hwritten)).2 hspoilt

end RootedHeap
