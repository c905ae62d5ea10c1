import Mathlib.Data.List.Forall2
import RootedHeap.Proofs.Spellings
import RootedHeap.Toml.Document

/-!
Documents and their texts. A document is the entries before the first header and the tables under
their headers, in any order. `Document.Written` says which texts a document has: blanks may stand
around keys, values and brackets, comments and empty lines anywhere, a line may end in either way,
keys may stand between quotes, and the last line need not end. `Document.parse_eq` is that every
such text is read as the entries of the document.
-/

namespace RootedHeap.Toml

open Text Reader

/-! ### The format -/

abbrev Pair := String × Datum

/-- A document of tables that hold data. -/
structure Document where
  root : List Pair
  tables : List (String × List Pair)

namespace Document

/-- No key and no table of a document stands twice. -/
structure Distinct (d : Document) : Prop where
  names : (d.root.map Prod.fst ++ d.tables.map Prod.fst).Nodup
  keys : ∀ part ∈ d.tables, (part.2.map Prod.fst).Nodup

def valued (pairs : List Pair) : Entries := pairs.map fun pair => (pair.1, pair.2.value)

def entries (d : Document) : Entries :=
  valued d.root ++ d.tables.map fun part => (part.1, Value.table .header (valued part.2))

end Document

/-- A line of a document that is not empty. -/
inductive Item where
  | entry (pair : Pair)
  | header (name : String)

/-- The lines of a document, in order. -/
def Document.items (d : Document) : List Item :=
  d.root.map .entry ++ d.tables.flatMap fun part => .header part.1 :: part.2.map .entry

/-- A name as a key. -/
inductive Named : String → List Char → Prop
  | quoted {x : String} {s : List Char} (quoted : Quoted x s) : Named x s
  | bare {cs : List Char} (nonempty : cs ≠ []) (chars : ∀ c ∈ cs, isKeyChar c = true) :
    Named (String.ofList cs) cs

inductive Remark : List Char → Prop
  | none : Remark []
  | comment {s : List Char} (shown : ∀ c ∈ s, isShown c = true) : Remark ('#' :: s)

inductive LineBreak : List Char → Prop
  | feed : LineBreak ['\n']
  | returned : LineBreak ['\r', '\n']

/-- A line without its end and the blanks before it. -/
inductive Row : Option Item → List Char → Prop
  | empty {r : List Char} (remark : Remark r) : Row none r
  | header {x : String} {before name after rest r : List Char} (before_blank : Blanks before)
      (named : Named x name) (after_blank : Blanks after) (rest_blank : Blanks rest)
      (remark : Remark r) :
    Row (some (.header x)) ('[' :: (before ++ (name ++ (after ++ ']' :: (rest ++ r)))))
  | entry {x : String} {d : Datum} {name before after value rest r : List Char}
      (named : Named x name) (before_blank : Blanks before) (after_blank : Blanks after)
      (spelled : Spelled d value) (rest_blank : Blanks rest) (remark : Remark r) :
    Row (some (.entry (x, d))) (name ++ (before ++ '=' :: (after ++ (value ++ (rest ++ r)))))

/-- Lines one after another, the last one without an end. -/
inductive Rows : List Item → List Char → Prop
  | last {item : Option Item} {b s : List Char} (blank : Blanks b) (row : Row item s) :
    Rows item.toList (b ++ s)
  | next {item : Option Item} {items : List Item} {b s e more : List Char} (blank : Blanks b)
      (row : Row item s) (ends : LineBreak e) (rows : Rows items more) :
    Rows (item.toList ++ items) (b ++ (s ++ (e ++ more)))

/-- A text of a document, with a byte order mark before it or without. -/
inductive Document.Written (d : Document) : List Char → Prop
  | plain {s : List Char} (rows : Rows d.items s) : d.Written s
  | marked {s : List Char} (rows : Rows d.items s) : d.Written ('\uFEFF' :: s)

/-! ### Plain texts -/

/-- A name of characters that a key may have stands for itself. -/
theorem Named.of_bare {x : String} (hne : x.toList ≠ []) (hx : x.toList.all isKeyChar = true) :
    Named x x.toList := by
  have hnamed := Named.bare hne (List.all_eq_true.1 hx)
  rwa [String.ofList_toList] at hnamed

/-- Rows that all end with a line feed. -/
theorem Rows.of_lines {rows : List (Option Item)} {ls : List String}
    (h : List.Forall₂ (fun row l => Row row l.toList) rows ls) :
    Rows rows.reduceOption (String.join (ls.map (· ++ "\n"))).toList := by
  induction h with
  | nil => exact .last (b := []) (by decide) (.empty .none)
  | @cons row l rows ls hrow _ ih =>
    have hrows := Rows.next (b := []) (by decide) hrow .feed ih
    have hitems : (row :: rows).reduceOption = row.toList ++ rows.reduceOption := by
      cases row <;> rfl
    rw [hitems]
    simpa using hrows

variable {s t w : List Char}

/-! ### Blanks, comments and line ends -/

/-- What is left of a line or a document after a line has ended. -/
inductive Ended : List Char → List Char → Prop
  | close : Ended [] []
  | go {e more : List Char} (ends : LineBreak e) : Ended (e ++ more) more

theorem reads_blanks {b : List Char} (hb : Blanks b) (ht : Stops isBlank t) :
    Reads blanks (b ++ t) () t :=
  (reads_takeWhile hb ht).bind (reads_pure _ _)

theorem reads_blanks_dropWhile (s : List Char) : Reads blanks s () (s.dropWhile isBlank) := by
  have hblanks : Blanks (s.takeWhile isBlank) := List.all_eq_true.1 List.all_takeWhile
  have hstops : Stops isBlank (s.dropWhile isBlank) := by
    intro c hc
    have := List.head?_dropWhile_not isBlank s
    rwa [hc] at this
  have h := reads_blanks hblanks hstops
  rwa [List.takeWhile_append_dropWhile] at h

/-- A character of a kind that the blanks do not have is none. -/
theorem isBlank_eq_false {q : Char → Bool} {c : Char} (hspace : q ' ' = false)
    (htab : q '\t' = false) (hc : q c = true) : isBlank c = false := by
  cases hblank : isBlank c with
  | false => rfl
  | true =>
    rcases (by simpa [isBlank] using hblank : c = ' ' ∨ c = '\t') with rfl | rfl <;> simp_all

theorem reads_newline {e : List Char} (he : LineBreak e) : Reads newline (e ++ t) () t := by
  cases he with
  | feed => exact reads_char.orElse
  | returned =>
    have hfeed : Refuses (char '\n') ('\r' :: '\n' :: t) := refuses_char (by simp)
    exact hfeed.orElse_reads (reads_char.bind reads_char)

theorem refuses_newline (hfeed : s.head? ≠ some '\n') (hreturn : s.head? ≠ some '\r') :
    Refuses newline s :=
  (refuses_char hfeed).orElse (refuses_char hreturn).bind

theorem reads_lineEnd (hw : Ended w t) : Reads lineEnd w () t := by
  cases hw with
  | close => exact (refuses_newline (by simp) (by simp)).orElse_reads reads_atEnd
  | go ends => exact (reads_newline ends).orElse

/-- A line ends with nothing, a line feed or a carriage return. -/
theorem Ended.head (hw : Ended w t) : ∀ c ∈ w.head?, c = '\n' ∨ c = '\r' := by
  cases hw with
  | close => simp
  | go ends => cases ends <;> simp

theorem reads_comment (hs : ∀ c ∈ s, isShown c = true) (hw : Ended w t) :
    Reads comment ('#' :: (s ++ w)) () w := by
  refine reads_char.bind ((reads_takeWhile hs ?_).bind (reads_pure _ _))
  intro c hc
  rcases hw.head c hc with rfl | rfl <;> decide

theorem Remark.head {r : List Char} (hr : Remark r) (hw : Ended w t) :
    ∀ c ∈ (r ++ w).head?, c = '#' ∨ c = '\n' ∨ c = '\r' := by
  cases hr with
  | none => exact fun c hc => .inr (hw.head c hc)
  | comment => simp

/-- What may follow a value does. -/
theorem terminated_of_remark {b r : List Char} (hb : Blanks b) (hr : Remark r) (hw : Ended w t) :
    Terminated (b ++ (r ++ w)) := by
  intro c hc
  cases b with
  | nil => rcases hr.head hw c hc with rfl | rfl | rfl <;> simp
  | cons d b =>
    obtain rfl : d = c := by simpa using hc
    have hd := hb d List.mem_cons_self
    rcases (by simpa [isBlank] using hd : d = ' ' ∨ d = '\t') with rfl | rfl <;> simp

theorem refuses_comment (hw : Ended w t) : Refuses comment w := by
  refine Refuses.bind (refuses_char fun h => ?_)
  rcases hw.head _ h with h | h <;> exact absurd h (by decide)

theorem reads_lineRest {b r : List Char} (hb : Blanks b) (hr : Remark r) (hw : Ended w t) :
    Reads lineRest (b ++ (r ++ w)) () t := by
  have hstops : Stops isBlank (r ++ w) := by
    intro c hc
    rcases hr.head hw c hc with rfl | rfl | rfl <;> decide
  refine (reads_blanks hb hstops).bind ?_
  cases hr with
  | none => exact (refuses_comment hw).maybe.bind (reads_lineEnd hw)
  | comment shown => exact (reads_comment shown hw).maybe.bind (reads_lineEnd hw)

/-! ### Keys and values -/

def startsKey (c : Char) : Bool := c == '"' || c == '\'' || isKeyChar c

theorem Named.exists_head {x : String} (h : Named x s) :
    ∃ c rest, s = c :: rest ∧ startsKey c = true := by
  cases h with
  | quoted hquoted => cases hquoted <;> exact ⟨_, _, rfl, rfl⟩
  | bare hne hchars =>
    obtain ⟨c, rest, rfl⟩ := List.exists_cons_of_ne_nil hne
    exact ⟨c, rest, rfl, by simp [startsKey, hchars c List.mem_cons_self]⟩

theorem reads_simpleKey {x : String} (h : Named x s) (ht : Stops isKeyChar t) :
    Reads simpleKey (s ++ t) x t := by
  cases h with
  | quoted hquoted =>
    rcases reads_lineText (t := t) hquoted with ⟨rest, rfl, hreads⟩ | ⟨rest, rfl, hreads⟩
    · exact hreads.orElse
    · have hbasic : Refuses (lineText '"' true) ('\'' :: rest ++ t) := refuses_lineText (by simp)
      exact hbasic.orElse_reads hreads.orElse
  | bare hne hchars =>
    have hquote : ∀ quote escapes, isKeyChar quote = false →
        Refuses (lineText quote escapes) (s ++ t) := by
      intro quote escapes hno
      refine refuses_lineText fun hhead => ?_
      obtain ⟨c, rest, rfl⟩ := List.exists_cons_of_ne_nil hne
      obtain rfl : c = quote := by simpa using hhead
      exact absurd (hchars c List.mem_cons_self) (by simp [hno])
    refine (hquote _ _ (by decide)).orElse_reads ((hquote _ _ (by decide)).orElse_reads ?_)
    exact (reads_takeSome hne hchars ht).bind (reads_pure _ _)

theorem reads_key {x : String} {before name after : List Char} {c : Char} (hbefore : Blanks before)
    (hname : Named x name) (hafter : Blanks after) (hc : c = '=' ∨ c = ']') :
    Reads key (before ++ (name ++ (after ++ c :: t))) ⟨[], x⟩ (c :: t) := by
  obtain ⟨k, rest, hrest, hk⟩ := hname.exists_head
  have hstart : Stops isBlank (name ++ (after ++ c :: t)) := by
    intro d hd
    obtain rfl : k = d := by simpa [hrest] using hd
    exact isBlank_eq_false (by decide) (by decide) hk
  have hclose : Stops isBlank (c :: t) := by
    intro d hd
    obtain rfl : c = d := by simpa using hd
    rcases hc with rfl | rfl <;> rfl
  have hend : Stops isKeyChar (after ++ c :: t) := by
    intro d hd
    cases after with
    | nil =>
      obtain rfl : c = d := by simpa using hd
      rcases hc with rfl | rfl <;> decide
    | cons b after =>
      obtain rfl : b = d := by simpa using hd
      rcases (by simpa [isBlank] using hafter b List.mem_cons_self : b = ' ' ∨ b = '\t') with
        rfl | rfl <;> decide
  have hpart : Reads keyPart (before ++ (name ++ (after ++ c :: t))) x (c :: t) :=
    (reads_blanks hbefore hstart).bind <| (reads_simpleKey hname hend).bind <|
      (reads_blanks hafter hclose).bind (reads_pure _ _)
  have hdot : Refuses (char '.') (c :: t) := by
    refine refuses_char ?_
    rcases hc with rfl | rfl <;> simp
  exact (hpart.separated_one hdot).bind (reads_pure _ _)

def startsValue (c : Char) : Bool :=
  startsNumber c || c == 't' || c == 'f' || c == '"' || c == '\''

theorem Whole.exists_head {n : Int} (h : Whole n s) :
    ∃ c rest, s = c :: rest ∧ startsNumber c = true := by
  have hnatural : ∀ {m : Nat} {s : List Char}, Natural m s →
      ∃ c rest, s = c :: rest ∧ startsNumber c = true := by
    intro m s hm
    obtain ⟨d, rest, rfl, hd⟩ := hm.exists_digit
    exact ⟨d, rest, rfl, by simp [startsNumber, hd]⟩
  cases h with
  | unsigned hm => exact hnatural hm
  | plus _ => exact ⟨_, _, rfl, rfl⟩
  | minus _ => exact ⟨_, _, rfl, rfl⟩
  | based _ _ => exact ⟨_, _, rfl, rfl⟩

theorem Spelled.exists_head {d : Datum} (h : Spelled d s) :
    ∃ c rest, s = c :: rest ∧ startsValue c = true := by
  cases h with
  | integer whole _ =>
    obtain ⟨c, rest, rfl, hc⟩ := whole.exists_head
    exact ⟨c, rest, rfl, by simp [startsValue, hc]⟩
  | yes => exact ⟨_, _, rfl, rfl⟩
  | no => exact ⟨_, _, rfl, rfl⟩
  | text quoted => cases quoted <;> exact ⟨_, _, rfl, rfl⟩

theorem reads_value {d : Datum} (h : Spelled d s) (ht : Terminated t) :
    Reads value (s ++ t) d.value t := by
  obtain ⟨c, rest, hrest, hc⟩ := h.exists_head
  have hbracket : ∀ b, startsValue b = false → Refuses (char b) (s ++ t) := by
    intro b hb
    refine refuses_char fun hhead => ?_
    obtain rfl : c = b := by simpa [hrest] using hhead
    exact absurd hc (by simp [hb])
  exact (hbracket _ (by decide)).bind.orElse_reads <|
    (hbracket _ (by decide)).bind.orElse_reads (reads_scalar h ht)

/-! ### Lines -/

/-- The line that a reader makes of a row. -/
def Item.line : Option Item → Line
  | none => .empty
  | some (.entry (x, d)) => .entry ⟨[], x⟩ d.value
  | some (.header x) => .header ⟨[], x⟩

theorem Named.head?_ne {x : String} {name : List Char} (hname : Named x name) {c : Char}
    (hc : startsKey c = false) : (name ++ t).head? ≠ some c := by
  obtain ⟨k, rest, hrest, hk⟩ := hname.exists_head
  intro hhead
  obtain rfl : k = c := by simpa [hrest] using hhead
  exact absurd hk (by simp [hc])

theorem reads_line_empty (hremark : Remark s) (hw : Ended w t) (hne : s ++ w ≠ []) :
    Reads line (s ++ w) .empty (t.dropWhile isBlank) := by
  refine Reads.bind ?_ ((reads_blanks_dropWhile t).bind (reads_pure _ _))
  cases hremark with
  | none =>
    have hnewline : Reads newline w () t := by
      cases hw with
      | close => exact absurd rfl hne
      | go ends => exact reads_newline ends
    exact (refuses_comment hw).bind.orElse_reads (hnewline.bind (reads_pure Line.empty t)).orElse
  | comment shown =>
    exact ((reads_comment shown hw).bind ((reads_lineEnd hw).bind (reads_pure Line.empty t))).orElse

theorem reads_line_header {x : String} {before name after rest r : List Char}
    (hbefore : Blanks before) (hname : Named x name) (hafter : Blanks after) (hrest : Blanks rest)
    (hremark : Remark r) (hw : Ended w t) :
    Reads line ('[' :: (before ++ (name ++ (after ++ ']' :: (rest ++ (r ++ w))))))
      (.header ⟨[], x⟩) (t.dropWhile isBlank) := by
  refine Reads.bind ?_ ((reads_blanks_dropWhile t).bind (reads_pure _ _))
  have hdouble : Refuses (literal ['[', '['])
      ('[' :: (before ++ (name ++ (after ++ ']' :: (rest ++ (r ++ w)))))) := by
    refine reads_char.bind_refuses (refuses_char ?_).bind
    cases before with
    | nil => exact hname.head?_ne (by decide)
    | cons b before =>
      rintro hhead
      obtain rfl : b = '[' := by simpa using hhead
      exact absurd (hbefore _ List.mem_cons_self) (by decide)
  have hheader := reads_key (t := rest ++ (r ++ w)) hbefore hname hafter (.inr rfl)
  refine (refuses_char (by simp)).bind.bind.orElse_reads <|
    (refuses_newline (by simp) (by simp)).bind.orElse_reads <|
    hdouble.bind.orElse_reads <| Reads.orElse ?_
  refine reads_char.bind <| hheader.bind <| reads_char.bind <|
    (reads_lineRest hrest hremark hw).bind ?_
  exact reads_pure _ _

theorem reads_line_entry {x : String} {d : Datum} {name before after value rest r : List Char}
    (hname : Named x name) (hbefore : Blanks before) (hafter : Blanks after)
    (hspelled : Spelled d value) (hrest : Blanks rest) (hremark : Remark r) (hw : Ended w t) :
    Reads line (name ++ (before ++ '=' :: (after ++ (value ++ (rest ++ (r ++ w))))))
      (.entry ⟨[], x⟩ d.value) (t.dropWhile isBlank) := by
  refine Reads.bind ?_ ((reads_blanks_dropWhile t).bind (reads_pure _ _))
  have hnone : Blanks [] := by simp [Blanks]
  have hkey := reads_key (t := after ++ (value ++ (rest ++ (r ++ w)))) hnone hname hbefore
    (.inl rfl)
  have hblanks : Reads blanks (after ++ (value ++ (rest ++ (r ++ w)))) ()
      (value ++ (rest ++ (r ++ w))) := by
    refine reads_blanks hafter fun c hc => ?_
    obtain ⟨k, more, hmore, hk⟩ := hspelled.exists_head
    obtain rfl : k = c := by simpa [hmore] using hc
    exact isBlank_eq_false (by decide) (by decide) hk
  have hvalue := reads_value hspelled (terminated_of_remark hrest hremark hw)
  have hfirst : ∀ c, startsKey c = false →
      (name ++ (before ++ '=' :: (after ++ (value ++ (rest ++ (r ++ w)))))).head? ≠ some c :=
    fun c hc => hname.head?_ne hc
  refine (refuses_char (hfirst '#' (by decide))).bind.bind.orElse_reads <|
    (refuses_newline (hfirst _ (by decide)) (hfirst _ (by decide))).bind.orElse_reads <|
    (refuses_literal_cons (hfirst _ (by decide))).bind.orElse_reads <|
    (refuses_char (hfirst '[' (by decide))).bind.orElse_reads ?_
  refine hkey.bind <| reads_char.bind <| hblanks.bind <| hvalue.bind <|
    (reads_lineRest hrest hremark hw).bind ?_
  exact reads_pure _ _

/-- A row is read with its end, unless nothing is left at all. -/
theorem reads_line {item : Option Item} (hrow : Row item s) (hw : Ended w t) (hne : s ++ w ≠ []) :
    Reads line (s ++ w) (Item.line item) (t.dropWhile isBlank) := by
  cases hrow with
  | empty hremark => exact reads_line_empty hremark hw hne
  | header hbefore hname hafter hrest hremark =>
    simp only [List.cons_append, List.append_assoc]
    exact reads_line_header hbefore hname hafter hrest hremark hw
  | entry hname hbefore hafter hspelled hrest hremark =>
    simp only [List.cons_append, List.append_assoc]
    exact reads_line_entry hname hbefore hafter hspelled hrest hremark hw

/-! ### All lines -/

/-- The first character of a line after the blanks before it. -/
def startsRow (c : Char) : Bool := c == '#' || c == '[' || c == '\n' || c == '\r' || startsKey c

theorem Row.head {item : Option Item} (hrow : Row item s) (hw : Ended w t) :
    ∀ c ∈ (s ++ w).head?, startsRow c = true := by
  intro c hc
  cases hrow with
  | empty hremark => rcases hremark.head hw c hc with rfl | rfl | rfl <;> rfl
  | header =>
    obtain rfl : '[' = c := by simpa using hc
    rfl
  | entry hname =>
    obtain ⟨k, rest, rfl, hk⟩ := hname.exists_head
    obtain rfl : k = c := by simpa using hc
    simp [startsRow, hk]

theorem Row.eq_none {item : Option Item} (hrow : Row item s) (hs : s = []) : item = none := by
  cases hrow with
  | empty => rfl
  | header => cases hs
  | entry hname =>
    obtain ⟨c, rest, rfl, -⟩ := hname.exists_head
    cases hs

theorem dropWhile_blanks {b : List Char} (hb : Blanks b) (hs : ∀ c ∈ s.head?, startsRow c = true) :
    (b ++ s).dropWhile isBlank = s := by
  rw [List.dropWhile_append_of_pos hb]
  cases s with
  | nil => rfl
  | cons c s =>
    have hc : isBlank c = false := isBlank_eq_false (by decide) (by decide) (hs c rfl)
    exact List.dropWhile_cons_of_neg (by simp [hc])

/-- Rows are read one line for each, up to a last one with nothing in it. -/
theorem reads_rows {items : List Item} (h : Rows items s) :
    ∃ rows : List (Option Item), rows.reduceOption = items ∧
      Reads (many line) (s.dropWhile isBlank) (rows.map Item.line) [] := by
  have hstop : Reads (many line) [] [] [] := Refuses.many rfl
  induction h with
  | @last item b s hb hrow =>
    rw [dropWhile_blanks hb (by simpa using hrow.head .close)]
    by_cases hs : s = []
    · obtain rfl := hrow.eq_none hs
      subst hs
      exact ⟨[], rfl, hstop⟩
    · refine ⟨[item], by cases item <;> rfl, ?_⟩
      have hline := reads_line hrow .close (by simpa using hs)
      rw [List.append_nil] at hline
      exact Reads.many hline (List.length_pos_iff.2 hs) hstop
  | @next item items b s e more hb hrow hends _ ih =>
    obtain ⟨rows, rfl, hrows⟩ := ih
    have hne : e ≠ [] := by cases hends <;> simp
    have hended : Ended (e ++ more) more := .go hends
    rw [dropWhile_blanks hb (hrow.head hended)]
    refine ⟨item :: rows, by cases item <;> rfl, Reads.many (reads_line hrow hended ?_) ?_ hrows⟩
    · simp [hne]
    · have hlt : 0 < e.length := List.length_pos_iff.2 hne
      have hle := (List.dropWhile_sublist isBlank (l := more)).length_le
      simp only [List.length_append]
      omega

theorem Rows.head {items : List Item} (h : Rows items s) :
    ∀ c ∈ s.head?, isBlank c = true ∨ startsRow c = true := by
  have hlead : ∀ {b s : List Char}, Blanks b → (∀ c ∈ s.head?, startsRow c = true) →
      ∀ c ∈ (b ++ s).head?, isBlank c = true ∨ startsRow c = true := by
    intro b s hb hs c hc
    cases b with
    | nil => exact .inr (hs c hc)
    | cons d b =>
      obtain rfl : d = c := by simpa using hc
      exact .inl (hb d List.mem_cons_self)
  cases h with
  | last hb hrow => exact hlead hb (by simpa using hrow.head .close)
  | next hb hrow hends _ => exact hlead hb (hrow.head (.go hends))

theorem reads_lines {d : Document} (h : d.Written s) :
    ∃ rows : List (Option Item), rows.reduceOption = d.items ∧
      Reads lines s (rows.map Item.line) [] := by
  cases h with
  | plain hrows =>
    obtain ⟨rows, hitems, hreads⟩ := reads_rows hrows
    have hmark : Refuses (char '\uFEFF') s := by
      refine refuses_char fun hhead => ?_
      rcases hrows.head _ hhead with h | h <;> exact absurd h (by decide)
    exact ⟨rows, hitems, hmark.maybe.bind ((reads_blanks_dropWhile s).bind hreads)⟩
  | @marked s hrows =>
    obtain ⟨rows, hitems, hreads⟩ := reads_rows hrows
    exact ⟨rows, hitems, reads_char.maybe.bind ((reads_blanks_dropWhile s).bind hreads)⟩

/-! ### Tables -/

/-- Data as the dotted keys of a section. -/
def Document.body (pairs : List Pair) : List (Key × Value) :=
  pairs.map fun pair => (⟨[], pair.1⟩, pair.2.value)

theorem sections_row (pair : Pair) (ls : List Line) :
    sections (Item.line (some (.entry pair)) :: ls) =
      ((⟨[], pair.1⟩, pair.2.value) :: (sections ls).1, (sections ls).2) := rfl

theorem sections_header (x : String) (ls : List Line) :
    sections (Item.line (some (.header x)) :: ls) =
      ([], ⟨⟨[], x⟩, false, (sections ls).1⟩ :: (sections ls).2) := rfl

/-- Empty rows do not matter. -/
theorem sections_rows (rows : List (Option Item)) :
    sections (rows.map Item.line) =
      sections (rows.reduceOption.map fun item => Item.line (some item)) := by
  induction rows with
  | nil => rfl
  | cons row rows ih =>
    rcases row with - | pair | x
    · exact ih
    · show sections (_ :: rows.map Item.line) = sections (_ :: rows.reduceOption.map _)
      rw [sections_row, sections_row, ih]
    · show sections (_ :: rows.map Item.line) = sections (_ :: rows.reduceOption.map _)
      rw [sections_header, sections_header, ih]

theorem sections_entries (pairs : List Pair) (ls : List Line) :
    sections ((pairs.map fun pair => Item.line (some (.entry pair))) ++ ls) =
      (Document.body pairs ++ (sections ls).1, (sections ls).2) := by
  induction pairs with
  | nil => rfl
  | cons pair pairs ih =>
    rw [List.map_cons, List.cons_append, sections_row, ih]
    rfl

theorem sections_tables (tables : List (String × List Pair)) :
    sections ((tables.flatMap fun part => Item.header part.1 :: part.2.map .entry).map
        fun item => Item.line (some item)) =
      ([], tables.map fun part => ⟨⟨[], part.1⟩, false, Document.body part.2⟩) := by
  induction tables with
  | nil => rfl
  | cons part tables ih =>
    simp only [List.flatMap_cons, List.map_append, List.map_cons, List.map_map, List.cons_append]
    have hbody := sections_entries part.2 ((tables.flatMap fun part =>
      Item.header part.1 :: part.2.map .entry).map fun item => Item.line (some item))
    rw [ih, List.append_nil] at hbody
    rw [sections_header]
    exact congrArg (fun found => ([], (⟨⟨[], part.1⟩, false, found.1⟩ : Section) :: found.2)) hbody

theorem sections_items (d : Document) :
    sections (d.items.map fun item => Item.line (some item)) =
      (Document.body d.root,
        d.tables.map fun part => ⟨⟨[], part.1⟩, false, Document.body part.2⟩) := by
  have hbody := sections_entries d.root ((d.tables.flatMap fun part =>
    Item.header part.1 :: part.2.map .entry).map fun item => Item.line (some item))
  rw [sections_tables, List.append_nil] at hbody
  rw [Document.items, List.map_append, List.map_map]
  exact hbody

theorem get?_eq_none {entries : Entries} {x : String} (hx : x ∉ entries.map Prod.fst) :
    Entries.get? entries x = none := by
  refine List.lookup_eq_none_iff.2 fun entry hentry => ?_
  have hne : entry.1 ≠ x := by
    rintro rfl
    exact hx (List.mem_map_of_mem hentry)
  simpa using hne.symm

theorem put_of_new {entries : Entries} {x : String} {v : Value} (hx : x ∉ entries.map Prod.fst) :
    entries.put x v = entries ++ [(x, v)] := by
  induction entries with
  | nil => rfl
  | cons entry rest ih =>
    simp only [List.map_cons, List.mem_cons, not_or] at hx
    rw [Entries.put, if_neg (Ne.symm hx.1), ih hx.2, List.cons_append]

/-- New keys are added in order. -/
theorem assignAll_body {entries : Entries} {pairs : List Pair}
    (hnew : (entries.map Prod.fst ++ pairs.map Prod.fst).Nodup) :
    Entries.assignAll entries (Document.body pairs) = some (entries ++ Document.valued pairs) := by
  induction pairs generalizing entries with
  | nil => simp [Document.body, Document.valued, Entries.assignAll]
  | cons pair pairs ih =>
    have hx : pair.1 ∉ entries.map Prod.fst := by
      intro hmem
      exact (List.nodup_append.1 hnew).2.2 _ hmem _ (by simp) rfl
    have hassign : entries.assign ⟨[], pair.1⟩ pair.2.value =
        some (entries ++ [(pair.1, pair.2.value)]) := by
      show Entries.add entries pair.1 pair.2.value = _
      rw [Entries.add, get?_eq_none hx]
    show (entries.assign ⟨[], pair.1⟩ pair.2.value >>= fun entries =>
      entries.assignAll (Document.body pairs)) = _
    rw [hassign]
    show Entries.assignAll (entries ++ [(pair.1, pair.2.value)]) (Document.body pairs) = _
    rw [ih (by simpa using hnew)]
    simp [Document.valued]

/-- New tables are added in order. -/
theorem addSections_tables {entries : Entries} {tables : List (String × List Pair)}
    (hnew : (entries.map Prod.fst ++ tables.map Prod.fst).Nodup)
    (hkeys : ∀ part ∈ tables, (part.2.map Prod.fst).Nodup) :
    (tables.map fun part => (⟨⟨[], part.1⟩, false, Document.body part.2⟩ : Section)).foldlM
        Entries.addSection entries =
      some (entries ++
        tables.map fun part => (part.1, Value.table .header (Document.valued part.2))) := by
  induction tables generalizing entries with
  | nil => simp
  | cons part tables ih =>
    have hx : part.1 ∉ entries.map Prod.fst := by
      intro hmem
      exact (List.nodup_append.1 hnew).2.2 _ hmem _ (by simp) rfl
    have hinner : Entries.assignAll [] (Document.body part.2) = some (Document.valued part.2) :=
      assignAll_body (by simpa using hkeys part List.mem_cons_self)
    have hadd : Entries.addSection entries ⟨⟨[], part.1⟩, false, Document.body part.2⟩ =
        some (entries ++ [(part.1, Value.table .header (Document.valued part.2))]) := by
      show Entries.addTable entries ⟨[], part.1⟩ (Document.body part.2) = _
      unfold Entries.addTable Entries.within
      dsimp only
      rw [get?_eq_none hx, hinner]
      exact congrArg some (put_of_new hx)
    rw [List.map_cons, List.foldlM_cons, hadd]
    show List.foldlM _ (entries ++ [_]) _ = _
    rw [ih (by simpa using hnew) fun other hother => hkeys other (List.mem_cons_of_mem _ hother)]
    simp

/-- Every text of a document is read as its entries. -/
theorem Document.parse_eq {d : Document} (hd : d.Distinct) {text : String}
    (h : d.Written text.toList) : parse text = some d.entries := by
  obtain ⟨rows, hitems, hreads⟩ := reads_lines h
  have hroot : Entries.assignAll [] (body d.root) = some (valued d.root) :=
    assignAll_body (by simpa using (List.nodup_append.1 hd.names).1)
  show (Reader.whole lines text.toList >>= assemble) = _
  rw [hreads.whole]
  show assemble (rows.map Item.line) = _
  rw [assemble, sections_rows, hitems, sections_items]
  dsimp only
  rw [hroot]
  refine addSections_tables ?_ hd.keys
  simpa [valued, Function.comp_def] using hd.names

end RootedHeap.Toml
