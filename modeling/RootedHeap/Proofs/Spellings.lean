import RootedHeap.Proofs.Readers
import RootedHeap.Toml.Scalar

/-!
How a value is spelled. A TOML document may write one text in several ways, between either kind of
quotes and with or without a backslash before a character, and so with whole numbers: with a sign,
with underscores, in four bases. The relations here are that part of the format, said without a
reader; `reads_scalar` is that the reader of values accepts every spelling and reads the value that
is meant.
-/

namespace RootedHeap.Toml

open Text Reader

/-! ### The format -/

/-- A value of the kinds that a configuration uses. -/
inductive Datum where
  | integer (n : Int)
  | boolean (b : Bool)
  | text (s : String)
  deriving DecidableEq

def Datum.value : Datum → Value
  | .integer n => .integer n
  | .boolean b => .boolean b
  | .text s => .text s

def Blanks (s : List Char) : Prop := ∀ c ∈ s, isBlank c = true

instance (s : List Char) : Decidable (Blanks s) :=
  decidable_of_iff (s.all isBlank = true) List.all_eq_true

/-- The letters that stand for a character after a backslash, with that character. -/
def shortEscapes : List (Char × Char) :=
  [('b', '\x08'), ('t', '\t'), ('n', '\n'), ('f', '\x0C'), ('r', '\r'), ('"', '"'), ('\\', '\\')]

/-- A character that is written with a backslash. -/
inductive Escaped : Char → List Char → Prop
  | short {letter c : Char} (known : (letter, c) ∈ shortEscapes) : Escaped c ['\\', letter]
  | four {digits : List Char} (length : digits.length = 4)
      (hex : ∀ d ∈ digits, isHexDigit d = true) (valid : (digitsValue 16 digits).isValidChar) :
    Escaped (Char.ofNat (digitsValue 16 digits)) ('\\' :: 'u' :: digits)
  | eight {digits : List Char} (length : digits.length = 8)
      (hex : ∀ d ∈ digits, isHexDigit d = true) (valid : (digitsValue 16 digits).isValidChar) :
    Escaped (Char.ofNat (digitsValue 16 digits)) ('\\' :: 'U' :: digits)

/-- What stands between two double quotes for a list of characters. -/
inductive Basic : List Char → List Char → Prop
  | nil : Basic [] []
  | plain {c : Char} {cs s : List Char} (shown : isShown c = true) (quote : c ≠ '"')
      (backslash : c ≠ '\\') (more : Basic cs s) : Basic (c :: cs) (c :: s)
  | escaped {c : Char} {w cs s : List Char} (escaped : Escaped c w) (more : Basic cs s) :
    Basic (c :: cs) (w ++ s)

/-- A text on one line between quotes of either kind. -/
inductive Quoted : String → List Char → Prop
  | basic {cs s : List Char} (inner : Basic cs s) :
    Quoted (String.ofList cs) ('"' :: (s ++ ['"']))
  | literal {cs : List Char} (shown : ∀ c ∈ cs, isShown c = true) (quote : ∀ c ∈ cs, c ≠ '\'') :
    Quoted (String.ofList cs) ('\'' :: (cs ++ ['\'']))

/-- Digits after the first one, each with an underscore before it or without. -/
inductive MoreDigits (p : Char → Bool) : List Char → List Char → Prop
  | nil : MoreDigits p [] []
  | next {d : Char} {ds s : List Char} (digit : p d = true) (more : MoreDigits p ds s) :
    MoreDigits p (d :: ds) (d :: s)
  | spaced {d : Char} {ds s : List Char} (digit : p d = true) (more : MoreDigits p ds s) :
    MoreDigits p (d :: ds) ('_' :: d :: s)

inductive Digits (p : Char → Bool) : List Char → List Char → Prop
  | mk {d : Char} {ds s : List Char} (digit : p d = true) (more : MoreDigits p ds s) :
    Digits p (d :: ds) (d :: s)

/-- A whole number in decimal digits. Only 0 starts with a 0. -/
inductive Natural : Nat → List Char → Prop
  | zero : Natural 0 ['0']
  | digits {ds s : List Char} (digits : Digits Char.isDigit ds s) (lead : s.head? ≠ some '0') :
    Natural (digitsValue 10 ds) s

/-- The letter of a base, the base and its digits. -/
inductive Base : Char → Nat → (Char → Bool) → Prop
  | hex : Base 'x' 16 isHexDigit
  | octal : Base 'o' 8 fun c => '0' ≤ c && c ≤ '7'
  | binary : Base 'b' 2 fun c => c == '0' || c == '1'

/-- A whole number. -/
inductive Whole : Int → List Char → Prop
  | unsigned {n : Nat} {s : List Char} (natural : Natural n s) : Whole n s
  | plus {n : Nat} {s : List Char} (natural : Natural n s) : Whole n ('+' :: s)
  | minus {n : Nat} {s : List Char} (natural : Natural n s) : Whole (-n) ('-' :: s)
  | based {letter : Char} {base : Nat} {p : Char → Bool} {ds s : List Char}
      (known : Base letter base p) (digits : Digits p ds s) :
    Whole (digitsValue base ds) ('0' :: letter :: s)

/-- A datum as a document may write it. -/
inductive Spelled : Datum → List Char → Prop
  | integer {n : Int} {s : List Char} (whole : Whole n s) (fits : fits n = true) :
    Spelled (.integer n) s
  | yes : Spelled (.boolean true) ['t', 'r', 'u', 'e']
  | no : Spelled (.boolean false) ['f', 'a', 'l', 's', 'e']
  | text {x : String} {s : List Char} (quoted : Quoted x s) : Spelled (.text x) s

/-- A text goes on with nothing, a blank, a comment or a line end, as it may after a value. -/
def Terminated (s : List Char) : Prop := ∀ c ∈ s.head?, c ∈ [' ', '\t', '#', '\n', '\r']

variable {s t : List Char} {p : Char → Bool}

/-! ### Plain spellings -/

/-- Characters that are neither controls nor quotes nor backslashes stand for themselves. -/
theorem Basic.of_plain (hs : s.all (fun c => isShown c && c != '"' && c != '\\') = true) :
    Basic s s := by
  induction s with
  | nil => exact .nil
  | cons c s ih =>
    rw [List.all_cons, Bool.and_eq_true] at hs
    obtain ⟨⟨hshown, hquote⟩, hslash⟩ := by simpa using hs.1
    exact .plain hshown hquote hslash (ih hs.2)

theorem MoreDigits.of_digits (hs : ∀ c ∈ s, p c = true) : MoreDigits p s s := by
  induction s with
  | nil => exact .nil
  | cons c s ih =>
    exact .next (hs c List.mem_cons_self) (ih fun d hd => hs d (List.mem_cons_of_mem _ hd))

theorem digitsValue_of_decimal (hs : ∀ c ∈ s, c.isDigit = true) :
    digitsValue 10 s = Nat.ofDigitChars 10 s 0 := by
  have hfold : ∀ n : Nat, s.foldl (fun n c =>
      let digit := if c.isDigit then c.toNat - '0'.toNat else c.toLower.toNat - 'a'.toNat + 10
      n * 10 + digit) n = Nat.ofDigitChars 10 s n := by
    induction s with
    | nil => exact fun _ => rfl
    | cons c s ih =>
      intro n
      have hc : c.isDigit = true := hs c List.mem_cons_self
      rw [List.foldl_cons, Nat.ofDigitChars_cons, ih fun d hd => hs d (List.mem_cons_of_mem _ hd)]
      simp only [hc, ↓reduceIte, Nat.mul_comm]
  exact hfold 0

/-- The digits of a number start with 0 only if it is 0. -/
theorem head?_toDigits {n : Nat} (hn : n ≠ 0) : (Nat.toDigits 10 n).head? ≠ some '0' := by
  induction n using Nat.strongRecOn with
  | ind n ih =>
    rw [Nat.toDigits_eq_if (by decide)]
    split
    · rename_i hlt
      have hdigit : ∀ m < 10, m ≠ 0 → m.digitChar ≠ '0' := by decide
      simpa using hdigit n hlt hn
    · obtain ⟨d, ds, hds⟩ :=
        List.exists_cons_of_ne_nil (Nat.toDigits_ne_nil (b := 10) (n := n / 10))
      have hhead := ih (n / 10) (by omega) (by omega)
      rw [hds] at hhead ⊢
      exact hhead

/-- A number in its decimal digits. -/
theorem natural_toDigits (n : Nat) : Natural n (Nat.toDigits 10 n) := by
  by_cases hn : n = 0
  · subst hn
    exact .zero
  · have hdigit : ∀ c ∈ Nat.toDigits 10 n, c.isDigit = true := fun c hc =>
      Nat.isDigit_of_mem_toDigits (by decide) (by decide) hc
    have hvalue : digitsValue 10 (Nat.toDigits 10 n) = n :=
      (digitsValue_of_decimal hdigit).trans Nat.ofDigitChars_ten_toDigits
    have hdigits : Digits Char.isDigit (Nat.toDigits 10 n) (Nat.toDigits 10 n) := by
      obtain ⟨d, ds, hds⟩ := List.exists_cons_of_ne_nil (Nat.toDigits_ne_nil (b := 10) (n := n))
      rw [hds] at hdigit ⊢
      exact .mk (hdigit d List.mem_cons_self)
        (.of_digits fun c hc => hdigit c (List.mem_cons_of_mem _ hc))
    have hnatural := Natural.digits hdigits (head?_toDigits hn)
    rwa [hvalue] at hnatural

/-! ### Texts -/

theorem reads_exactly {ds : List Char} {n : Nat} (hlen : ds.length = n)
    (hds : ∀ d ∈ ds, p d = true) : Reads (exactly p n) (ds ++ t) ds t := by
  induction ds generalizing n with
  | nil =>
    subst hlen
    exact reads_pure _ _
  | cons d ds ih =>
    subst hlen
    have hd : Reads (one p) (d :: (ds ++ t)) d (ds ++ t) := reads_one (hds d List.mem_cons_self)
    exact hd.bind ((ih rfl fun x hx => hds x (List.mem_cons_of_mem _ hx)).bind (reads_pure _ _))

theorem reads_numbered {ds : List Char} {n : Nat} (hlen : ds.length = n)
    (hds : ∀ d ∈ ds, isHexDigit d = true) (hvalid : (digitsValue 16 ds).isValidChar) :
    Reads (numbered n) (ds ++ t) (Char.ofNat (digitsValue 16 ds)) t := by
  refine (reads_exactly hlen hds).bind ?_
  dsimp only
  rw [if_pos hvalid]
  exact reads_pure _ _

theorem reads_escape {c : Char} {w : List Char} (hw : Escaped c w) :
    Reads escape (w ++ t) c t := by
  cases hw with
  | short hknown =>
    simp only [shortEscapes, List.mem_cons, Prod.mk.injEq, List.not_mem_nil, or_false] at hknown
    rcases hknown with ⟨rfl, rfl⟩ | ⟨rfl, rfl⟩ | ⟨rfl, rfl⟩ | ⟨rfl, rfl⟩ | ⟨rfl, rfl⟩ | ⟨rfl, rfl⟩ |
      ⟨rfl, rfl⟩ <;>
    exact reads_char.bind ((reads_one rfl).bind (reads_pure _ _))
  | four hlen hhex hvalid =>
    exact reads_char.bind ((reads_one rfl).bind (reads_numbered hlen hhex hvalid))
  | eight hlen hhex hvalid =>
    exact reads_char.bind ((reads_one rfl).bind (reads_numbered hlen hhex hvalid))

/-- What stands between double quotes up to the first backslash. -/
theorem Basic.exists_run {cs : List Char} (h : Basic cs s) :
    ∃ run cs' s', cs = run ++ cs' ∧ s = run ++ s' ∧ Basic cs' s' ∧
      (∀ c ∈ run, isShown c = true ∧ c ≠ '"' ∧ c ≠ '\\') ∧ ∀ c ∈ s'.head?, c = '\\' := by
  induction h with
  | nil => exact ⟨[], [], [], rfl, rfl, .nil, by simp, by simp⟩
  | @plain c cs s shown quote backslash _ ih =>
    obtain ⟨run, cs', s', rfl, rfl, hmore, hrun, hstop⟩ := ih
    refine ⟨c :: run, cs', s', rfl, rfl, hmore, ?_, hstop⟩
    simpa using ⟨⟨shown, quote, backslash⟩, hrun⟩
  | @escaped c w cs s escaped more _ =>
    refine ⟨[], c :: cs, w ++ s, rfl, rfl, .escaped escaped more, by simp, ?_⟩
    cases escaped <;> simp

theorem refuses_piece_of_quote {quote : Char} {escapes : Bool} (hquote : quote ≠ '\\') :
    Refuses (piece quote escapes) (quote :: t) := by
  have hplain : Refuses (plain quote escapes) (quote :: t) := by
    refine refuses_takeSome ?_
    intro c hc
    obtain rfl : c = quote := by simpa using hc.symm
    simp
  refine hplain.orElse ?_
  cases escapes with
  | false => exact refuses_failure _
  | true => exact (refuses_char (by simpa using hquote)).bind.bind

theorem reads_piece_plain {quote : Char} {escapes : Bool} {run : List Char} (hne : run ≠ [])
    (hrun : ∀ c ∈ run, isShown c = true ∧ c ≠ quote ∧ (escapes = true → c ≠ '\\'))
    (hstop : ∀ c ∈ t.head?, c = quote ∨ escapes = true ∧ c = '\\') :
    Reads (piece quote escapes) (run ++ t) run t := by
  refine Reads.orElse (reads_takeSome hne ?_ ?_)
  · intro c hc
    obtain ⟨hshown, hquote, hslash⟩ := hrun c hc
    cases escapes <;> simp_all
  · intro c hc
    rcases hstop c hc with rfl | ⟨rfl, rfl⟩ <;> simp

theorem reads_piece_escape {c : Char} {w : List Char} (hw : Escaped c w) :
    Reads (piece '"' true) (w ++ t) [c] t := by
  have hplain : Refuses (plain '"' true) (w ++ t) := by
    refine refuses_takeSome ?_
    intro d hd
    obtain rfl : d = '\\' := by cases hw <;> simpa using hd.symm
    decide
  exact hplain.orElse_reads ((reads_escape hw).bind (reads_pure _ _))

theorem Escaped.ne_nil {c : Char} {w : List Char} (hw : Escaped c w) : w ≠ [] := by
  cases hw <;> simp

theorem reads_pieces {cs : List Char} (h : Basic cs s) :
    ∃ pieces, pieces.flatten = cs ∧
      Reads (many (piece '"' true)) (s ++ '"' :: t) pieces ('"' :: t) := by
  -- A piece is a run of plain characters or one with a backslash; either is one character or more.
  induction hn : cs.length using Nat.strongRecOn generalizing cs s with
  | ind n ih =>
    subst hn
    obtain ⟨run, cs', s', rfl, rfl, hmore, hrun, hstop⟩ := h.exists_run
    cases hempty : run with
    | nil =>
      subst hempty
      cases hmore with
      | nil => exact ⟨[], rfl, (refuses_piece_of_quote (by decide)).many⟩
      | plain _ _ backslash _ => exact absurd (hstop _ rfl) backslash
      | @escaped c w cs s escaped more =>
        obtain ⟨pieces, hflat, hreads⟩ := ih cs.length (by simp) more rfl
        refine ⟨[c] :: pieces, by simp [hflat], ?_⟩
        have hpos : 0 < w.length := List.length_pos_iff.2 escaped.ne_nil
        rw [List.nil_append, List.append_assoc]
        exact Reads.many (reads_piece_escape escaped) (by simp; omega) hreads
    | cons c rest =>
      have hne : run ≠ [] := by simp [hempty]
      have hpos : 0 < run.length := List.length_pos_iff.2 hne
      rw [← hempty]
      obtain ⟨pieces, hflat, hreads⟩ := ih cs'.length (by simp; omega) hmore rfl
      refine ⟨run :: pieces, by simp [hflat], ?_⟩
      rw [List.append_assoc]
      refine Reads.many (reads_piece_plain hne ?_ ?_) (by simp; omega) hreads
      · intro d hd
        exact ⟨(hrun d hd).1, (hrun d hd).2.1, fun _ => (hrun d hd).2.2⟩
      · intro d hd
        cases s' with
        | nil => exact .inl (by simpa using hd.symm)
        | cons e s' => exact .inr ⟨rfl, hstop d hd⟩

/-- Between quotes stands what is meant. -/
theorem reads_lineText {x : String} (h : Quoted x s) :
    (∃ rest, s = '"' :: rest ∧ Reads (lineText '"' true) (s ++ t) x t) ∨
      ∃ rest, s = '\'' :: rest ∧ Reads (lineText '\'' false) (s ++ t) x t := by
  cases h with
  | @basic cs inner hinner =>
    obtain ⟨pieces, rfl, hreads⟩ := reads_pieces (t := t) hinner
    refine .inl ⟨_, rfl, ?_⟩
    rw [List.cons_append, List.append_assoc]
    exact reads_char.bind (hreads.bind (reads_char.bind (reads_pure _ _)))
  | @literal cs shown quote =>
    refine .inr ⟨_, rfl, ?_⟩
    rw [List.cons_append, List.append_assoc]
    have hstop : Reads (many (piece '\'' false)) ('\'' :: t) [] ('\'' :: t) :=
      (refuses_piece_of_quote (by decide)).many
    have hpieces : ∃ pieces, pieces.flatten = cs ∧
        Reads (many (piece '\'' false)) (cs ++ '\'' :: t) pieces ('\'' :: t) := by
      cases hcs : cs with
      | nil => exact ⟨[], rfl, hstop⟩
      | cons c rest =>
        rw [← hcs]
        refine ⟨[cs], by simp, Reads.many (reads_piece_plain (by simp [hcs]) ?_ ?_) ?_ hstop⟩
        · intro d hd
          exact ⟨shown d hd, quote d hd, by simp⟩
        · intro d hd
          exact .inl (by simpa using hd.symm)
        · simp only [hcs, List.length_append, List.length_cons]
          omega
    obtain ⟨pieces, rfl, hreads⟩ := hpieces
    exact reads_char.bind (hreads.bind (reads_char.bind (reads_pure _ _)))

theorem refuses_lineText {quote : Char} {escapes : Bool} (hs : s.head? ≠ some quote) :
    Refuses (lineText quote escapes) s :=
  (refuses_char hs).bind

theorem refuses_longText {quote : Char} {escapes : Bool} (hs : ¬ [quote, quote, quote] <+: s) :
    Refuses (longText quote escapes) s :=
  (refuses_literal hs).bind

/-- Two quotes that enclose nothing are no beginning of three, since a value ends with them. -/
theorem not_prefix_of_quoted {x : String} (h : Quoted x s) (ht : Terminated t) {quote : Char} :
    ¬ [quote, quote, quote] <+: s ++ t := by
  have hend : ∀ c, c ∉ [' ', '\t', '#', '\n', '\r'] → ¬ [c] <+: t := by
    rintro c hc ⟨rest, rfl⟩
    exact hc (ht c rfl)
  cases h with
  | basic hinner =>
    cases hinner with
    | nil =>
      simp only [List.nil_append, List.cons_append, List.cons_prefix_cons]
      rintro ⟨rfl, -, hthird⟩
      exact hend '"' (by decide) hthird
    | plain _ hplain _ _ =>
      simp only [List.cons_append, List.cons_prefix_cons]
      rintro ⟨rfl, rfl, -⟩
      exact hplain rfl
    | escaped hw _ =>
      cases hw <;> simp only [List.cons_append, List.cons_prefix_cons] <;>
        rintro ⟨rfl, hslash, -⟩ <;> exact absurd hslash (by decide)
  | @literal cs _ hne =>
    cases cs with
    | nil =>
      simp only [List.nil_append, List.cons_append, List.cons_prefix_cons]
      rintro ⟨rfl, -, hthird⟩
      exact hend '\'' (by decide) hthird
    | cons c cs =>
      simp only [List.cons_append, List.cons_prefix_cons]
      rintro ⟨rfl, rfl, -⟩
      exact hne _ List.mem_cons_self rfl

theorem reads_text {x : String} (h : Quoted x s) (ht : Terminated t) : Reads text (s ++ t) x t := by
  have hlong : ∀ quote escapes, Refuses (longText quote escapes) (s ++ t) :=
    fun _ _ => refuses_longText (not_prefix_of_quoted h ht)
  rcases reads_lineText (t := t) h with ⟨rest, rfl, hreads⟩ | ⟨rest, rfl, hreads⟩
  · exact (hlong _ _).orElse_reads hreads.orElse
  · have hbasic : Refuses (lineText '"' true) ('\'' :: rest ++ t) := refuses_lineText (by simp)
    exact (hlong _ _).orElse_reads (hbasic.orElse_reads ((hlong _ _).orElse_reads hreads))

/-! ### Whole numbers -/

theorem reads_moreDigits {ds : List Char} (hp : p '_' = false) (h : MoreDigits p ds s)
    (ht : Stops (fun c => p c || c == '_') t) :
    Reads (many (one p <|> (do char '_'; one p))) (s ++ t) ds t := by
  induction h with
  | nil =>
    refine Refuses.many ((refuses_one ?_).orElse (refuses_char ?_).bind)
    · intro c hc
      have := ht c hc
      simp_all
    · intro hc
      have := ht '_' hc
      simp at this
  | @next d ds s hd _ ih => exact Reads.many (reads_one hd).orElse (by simp) ih
  | @spaced d ds s hd _ ih =>
    have hunder : Refuses (one p) ('_' :: d :: (s ++ t)) := by
      refine refuses_one ?_
      intro c hc
      obtain rfl : c = '_' := by simpa using hc.symm
      exact hp
    have hshorter : (s ++ t).length < ('_' :: d :: (s ++ t)).length :=
      Nat.lt_succ_of_lt (Nat.lt_succ_self _)
    exact Reads.many (hunder.orElse_reads (reads_char.bind (reads_one hd))) hshorter ih

theorem reads_digitsWith {ds : List Char} (hp : p '_' = false) (h : Digits p ds s)
    (ht : Stops (fun c => p c || c == '_') t) : Reads (digitsWith p) (s ++ t) ds t := by
  obtain ⟨hd, hmore⟩ := h
  exact (reads_one hd).bind ((reads_moreDigits hp hmore ht).bind (reads_pure _ _))

theorem Terminated.stops_digits (ht : Terminated t)
    (hp : [' ', '\t', '#', '\n', '\r'].all (fun c => !p c) = true) :
    Stops (fun c => p c || c == '_') t := by
  intro c hc
  have hmem := ht c hc
  have hout := List.all_eq_true.1 hp c hmem
  have hne : c ≠ '_' := by
    rintro rfl
    exact absurd hmem (by decide)
  simp_all

/-- A whole number starts with a digit. -/
theorem Natural.exists_digit {n : Nat} (h : Natural n s) :
    ∃ d rest, s = d :: rest ∧ d.isDigit = true := by
  cases h with
  | zero => exact ⟨'0', [], rfl, rfl⟩
  | digits hds _ =>
    obtain ⟨hd, -⟩ := hds
    exact ⟨_, _, rfl, hd⟩

theorem reads_lone_zero {rest : List Char} : Reads wholeDigits ('0' :: rest) ['0'] rest := by
  have hlead : Refuses (ahead (one fun c => c != '0')) ('0' :: rest) :=
    Refuses.ahead (refuses_one (by simp [Stops]))
  exact Refuses.orElse_reads hlead.bind ((reads_one rfl).bind (reads_pure _ _))

theorem reads_wholeDigits {n : Nat} (h : Natural n s) (ht : Terminated t) :
    ∃ ds, digitsValue 10 ds = n ∧ Reads wholeDigits (s ++ t) ds t := by
  cases h with
  | zero => exact ⟨['0'], rfl, reads_lone_zero⟩
  | @digits ds s hds hlead =>
    refine ⟨ds, rfl, Reads.orElse ?_⟩
    obtain ⟨d, rest, rfl, hd⟩ := (Natural.digits hds hlead).exists_digit
    have hahead : Reads (ahead (one fun c => c != '0')) (d :: rest ++ t) d (d :: rest ++ t) :=
      (reads_one (by simpa using hlead)).ahead
    exact hahead.bind (reads_digitsWith rfl hds (ht.stops_digits (by decide)))

inductive Sign : Bool → List Char → Prop
  | none : Sign false []
  | plus : Sign false ['+']
  | minus : Sign true ['-']

theorem reads_sign {negative : Bool} (h : Sign negative s)
    (ht : t.head? ≠ some '+' ∧ t.head? ≠ some '-') : Reads sign (s ++ t) negative t := by
  cases h with
  | none =>
    have hone : Refuses (one fun c => c == '+' || c == '-') t := by
      refine refuses_one ?_
      intro c hc
      have hplus : c ≠ '+' := by rintro rfl; exact ht.1 hc
      have hminus : c ≠ '-' := by rintro rfl; exact ht.2 hc
      simp [hplus, hminus]
    exact hone.maybe.bind (reads_pure _ _)
  | plus => exact (Reads.maybe (reads_one rfl)).bind (reads_pure _ _)
  | minus => exact (Reads.maybe (reads_one rfl)).bind (reads_pure _ _)

/-- A whole number is a sign with digits, or has a base of its own. -/
theorem Whole.cases_sign {n : Int} (h : Whole n s) :
    (∃ negative sg m ds, n = signed negative m ∧ s = sg ++ ds ∧ Sign negative sg ∧ Natural m ds) ∨
      ∃ letter base p ds rest, n = digitsValue base ds ∧ s = '0' :: letter :: rest ∧
        Base letter base p ∧ Digits p ds rest := by
  cases h with
  | unsigned hm => exact .inl ⟨false, [], _, _, rfl, rfl, .none, hm⟩
  | plus hm => exact .inl ⟨false, ['+'], _, _, rfl, rfl, .plus, hm⟩
  | minus hm => exact .inl ⟨true, ['-'], _, _, rfl, rfl, .minus, hm⟩
  | based known digits => exact .inr ⟨_, _, _, _, _, rfl, rfl, known, digits⟩

/-! A whole number is none of the values that the reader looks for before it. -/

/-- A reader of a count of digits does not get past the digits. -/
theorem exactly_cases (p : Char → Bool) (n : Nat) (w : List Char) :
    Refuses (exactly p n) w ∨
      ∃ ds w', Reads (exactly p n) w ds w' ∧ w'.dropWhile p = w.dropWhile p := by
  induction n generalizing w with
  | zero => exact .inr ⟨[], w, reads_pure _ _, rfl⟩
  | succ n ih =>
    by_cases hw : Stops p w
    · exact .inl (refuses_one hw).bind
    · obtain ⟨c, hc, hpc⟩ : ∃ c, c ∈ w.head? ∧ p c = true := by simpa [Stops] using hw
      obtain ⟨w, rfl⟩ := List.head?_eq_some_iff.1 hc
      rcases ih w with hrefuses | ⟨ds, w', hreads, hdrop⟩
      · exact .inl ((reads_one hpc).bind_refuses hrefuses.bind)
      · refine .inr ⟨c :: ds, w', (reads_one hpc).bind (hreads.bind (reads_pure _ _)), ?_⟩
        rw [hdrop, List.dropWhile_cons_of_pos hpc]

theorem twoDigits_cases (lower upper : Nat) (w : List Char) :
    Refuses (twoDigits lower upper) w ∨ ∃ n w', Reads (twoDigits lower upper) w n w' ∧
      w'.dropWhile Char.isDigit = w.dropWhile Char.isDigit := by
  rcases exactly_cases Char.isDigit 2 w with hrefuses | ⟨ds, w', hreads, hdrop⟩
  · exact .inl hrefuses.bind
  · cases hbound : lower ≤ digitsValue 10 ds && digitsValue 10 ds ≤ upper with
    | true =>
      refine .inr ⟨digitsValue 10 ds, w', hreads.bind ?_, hdrop⟩
      dsimp only
      rw [if_pos hbound]
      exact reads_pure _ _
    | false =>
      refine .inl (hreads.bind_refuses ?_)
      dsimp only
      rw [if_neg (by simp [hbound])]
      exact refuses_failure _

/-- A number that goes on neither with a dash nor with a colon is no day and no time. -/
theorem refuses_dateTime {w : List Char}
    (hw : ∀ c ∈ (w.dropWhile Char.isDigit).head?, c ≠ '-' ∧ c ≠ ':') : Refuses dateTime w := by
  have hmark : ∀ (w' : List Char) (c : Char), w'.dropWhile Char.isDigit = w.dropWhile Char.isDigit →
      c.isDigit = false → c = '-' ∨ c = ':' → w'.head? ≠ some c := by
    intro w' c hdrop hdigit hc hhead
    obtain ⟨w', rfl⟩ := List.head?_eq_some_iff.1 hhead
    rw [List.dropWhile_cons_of_neg (by simp [hdigit])] at hdrop
    have := hw c (by rw [← hdrop]; rfl)
    rcases hc with rfl | rfl <;> simp_all
  have hdate : Refuses date w := by
    rcases exactly_cases Char.isDigit 4 w with hrefuses | ⟨ds, w', hreads, hdrop⟩
    · exact hrefuses.bind
    · exact hreads.bind_refuses (refuses_char (hmark w' '-' hdrop rfl (.inl rfl))).bind
  have htime : Refuses time w := by
    rcases twoDigits_cases 0 23 w with hrefuses | ⟨n, w', hreads, hdrop⟩
    · exact hrefuses.bind
    · exact hreads.bind_refuses (refuses_char (hmark w' ':' hdrop rfl (.inr rfl))).bind
  exact hdate.bind.orElse htime.bind

/-- What is not one digit or more first, is no day and no time. -/
theorem refuses_dateTime_of_stops {w : List Char} (hw : Stops Char.isDigit w) :
    Refuses dateTime w := by
  have hexactly : ∀ n, Refuses (exactly Char.isDigit (n + 1)) w := fun n => (refuses_one hw).bind
  exact (hexactly 3).bind.bind.orElse (hexactly 1).bind.bind.bind

/-- Digits without a point and without an exponent are no fraction. -/
theorem refuses_decimal {w w' w'' ds : List Char} {negative : Bool}
    (hsign : Reads sign w negative w') (hdigits : Reads wholeDigits w' ds w'')
    (hw : ∀ c ∈ w''.head?, c ≠ '.' ∧ c ≠ 'e' ∧ c ≠ 'E') : Refuses decimal w := by
  have hfraction : Refuses fraction w'' :=
    (refuses_char fun hhead => (hw '.' hhead).1 rfl).bind
  have hexponent : Refuses exponent w'' := by
    refine Refuses.bind (refuses_one ?_)
    intro c hc
    obtain ⟨-, he, hE⟩ := hw c hc
    simp [he, hE]
  refine hsign.bind_refuses (hdigits.bind_refuses ?_)
  refine hfraction.maybe.bind_refuses (hexponent.maybe.bind_refuses ?_)
  exact (refuses_failure _).bind

theorem refuses_special {w w' : List Char} {negative : Bool} (hsign : Reads sign w negative w')
    (hw : ∀ c ∈ w'.head?, c ≠ 'i' ∧ c ≠ 'n') : Refuses special w := by
  have hinfinity : Refuses (literal ['i', 'n', 'f']) w' :=
    refuses_literal_cons fun hhead => (hw _ hhead).1 rfl
  have hundefined : Refuses (literal ['n', 'a', 'n']) w' :=
    refuses_literal_cons fun hhead => (hw _ hhead).2 rfl
  exact hsign.bind_refuses (hinfinity.bind.orElse hundefined.bind)

theorem refuses_text {w : List Char} (hw : ∀ c ∈ w.head?, c ≠ '"' ∧ c ≠ '\'') : Refuses text w := by
  have hbasic : w.head? ≠ some '"' := fun hhead => (hw _ hhead).1 rfl
  have hliteral : w.head? ≠ some '\'' := fun hhead => (hw _ hhead).2 rfl
  have hlong : ∀ quote escapes, w.head? ≠ some quote → Refuses (longText quote escapes) w :=
    fun _ _ hhead => (refuses_literal_cons hhead).bind
  exact (hlong _ _ hbasic).orElse <| (refuses_lineText hbasic).orElse <|
    (hlong _ _ hliteral).orElse (refuses_lineText hliteral)

theorem refuses_boolean {w : List Char} (hw : ∀ c ∈ w.head?, c ≠ 't' ∧ c ≠ 'f') :
    Refuses boolean w := by
  have htrue : Refuses (literal "true".toList) w :=
    refuses_literal_cons fun hhead => (hw _ hhead).1 rfl
  have hfalse : Refuses (literal "false".toList) w :=
    refuses_literal_cons fun hhead => (hw _ hhead).2 rfl
  exact htrue.bind.orElse hfalse.bind

/-- After the digits of a whole number stands an underscore or what may follow a value. -/
theorem MoreDigits.dropWhile {ds : List Char} (h : MoreDigits Char.isDigit ds s)
    (ht : Terminated t) :
    ∀ c ∈ ((s ++ t).dropWhile Char.isDigit).head?, c ∈ ['_', ' ', '\t', '#', '\n', '\r'] := by
  induction h with
  | nil =>
    intro c hc
    cases t with
    | nil => cases hc
    | cons d t =>
      have hd := ht d rfl
      have hdigit : d.isDigit = false := by
        revert hd
        simp only [List.mem_cons, List.not_mem_nil, or_false]
        rintro (rfl | rfl | rfl | rfl | rfl) <;> rfl
      rw [List.nil_append, List.dropWhile_cons_of_neg (by simp [hdigit])] at hc
      exact List.mem_cons_of_mem _ (ht c hc)
  | next hd _ ih =>
    rw [List.cons_append, List.dropWhile_cons_of_pos hd]
    exact ih
  | spaced _ _ _ =>
    intro c hc
    rw [List.cons_append, List.dropWhile_cons_of_neg (by decide)] at hc
    obtain rfl : '_' = c := by simpa using hc
    exact List.mem_cons_self

theorem Natural.dropWhile {n : Nat} (h : Natural n s) (ht : Terminated t) :
    ∀ c ∈ ((s ++ t).dropWhile Char.isDigit).head?, c ∈ ['_', ' ', '\t', '#', '\n', '\r'] := by
  cases h with
  | zero => exact MoreDigits.dropWhile (.next rfl .nil) ht
  | digits hds _ =>
    obtain ⟨hd, hmore⟩ := hds
    exact MoreDigits.dropWhile (.next hd hmore) ht

/-- A number in decimal has no letter of a base after a 0. -/
theorem not_prefix_of_natural {n : Nat} {letter : Char} (h : Natural n s) (ht : Terminated t)
    (hletter : letter ∉ [' ', '\t', '#', '\n', '\r']) : ¬ ['0', letter] <+: s ++ t := by
  cases h with
  | zero =>
    rintro ⟨rest, hrest⟩
    obtain rfl : letter :: rest = t := by simpa using hrest
    exact hletter (ht letter rfl)
  | digits hds hlead =>
    obtain ⟨-, -⟩ := hds
    simp only [List.cons_append, List.cons_prefix_cons]
    rintro ⟨rfl, -⟩
    exact hlead rfl

theorem reads_fitting {n : Int} (hfits : fits n = true) :
    Reads (fitting n) t (Value.integer n) t := by
  unfold fitting
  rw [if_pos hfits]
  exact reads_pure _ _

theorem refuses_based {w : List Char} {letter : Char} {base : Nat} (hw : ¬ ['0', letter] <+: w) :
    Refuses (based letter base p) w :=
  (refuses_literal hw).bind

/-- The first character of a whole number, which neither a text nor a truth value starts with. -/
def startsNumber (c : Char) : Bool := c.isDigit || c == '+' || c == '-'

/-- The reader of values comes to whole numbers last. -/
theorem reads_scalar_of_integer {w w' digits : List Char} {v : Value} {negative : Bool}
    (hw : ∀ c ∈ w.head?, startsNumber c = true) (hdateTime : Refuses dateTime w)
    (hsign : Reads sign w negative w') (hfirst : ∀ c ∈ w'.head?, c.isDigit = true)
    (hdigits : Reads wholeDigits w' digits s) (hs : ∀ c ∈ s.head?, c ≠ '.' ∧ c ≠ 'e' ∧ c ≠ 'E')
    (hinteger : Reads integer w v t) : Reads scalar w v t := by
  have htext : Refuses text w := by
    refine refuses_text fun c hc => ?_
    constructor <;> (rintro rfl; exact absurd (hw _ hc) (by decide))
  have hboolean : Refuses boolean w := by
    refine refuses_boolean fun c hc => ?_
    constructor <;> (rintro rfl; exact absurd (hw _ hc) (by decide))
  have hspecial : Refuses special w := by
    refine refuses_special hsign fun c hc => ?_
    constructor <;> (rintro rfl; exact absurd (hfirst _ hc) (by decide))
  exact htext.bind.orElse_reads <| hboolean.orElse_reads <| hdateTime.orElse_reads <|
    (refuses_decimal hsign hdigits hs).orElse_reads <| hspecial.orElse_reads hinteger

/-! ### Numbers with a sign -/

section Signed

variable {negative : Bool} {sg ds : List Char} {m : Nat}

theorem Sign.startsNumber {d : Char} (hsg : Sign negative sg) (hs : s.head? = some d)
    (hd : d.isDigit = true) : ∀ c ∈ (sg ++ s).head?, startsNumber c = true := by
  intro c hc
  cases hsg with
  | none =>
    obtain rfl : d = c := by simpa [hs] using hc
    simp [Toml.startsNumber, hd]
  | plus =>
    obtain rfl : '+' = c := by simpa using hc
    rfl
  | minus =>
    obtain rfl : '-' = c := by simpa using hc
    rfl

/-- No mark of a date or a time follows the digits of a whole number. -/
theorem refuses_dateTime_signed (hsg : Sign negative sg) (hm : Natural m ds) (ht : Terminated t) :
    Refuses dateTime (sg ++ (ds ++ t)) := by
  cases hsg with
  | none =>
    refine refuses_dateTime fun c hc => ?_
    have hnext := hm.dropWhile ht c hc
    constructor <;> (rintro rfl; exact absurd hnext (by decide))
  | plus => exact refuses_dateTime_of_stops (by simp [Stops])
  | minus => exact refuses_dateTime_of_stops (by simp [Stops])

/-- A number in decimal is not read in another base. -/
theorem refuses_based_signed {letter : Char} {base : Nat} (hsg : Sign negative sg)
    (hm : Natural m ds) (ht : Terminated t) (hletter : letter ∉ [' ', '\t', '#', '\n', '\r']) :
    Refuses (based letter base p) (sg ++ (ds ++ t)) := by
  refine refuses_based ?_
  cases hsg with
  | none => exact not_prefix_of_natural (s := ds) hm ht hletter
  | plus => simp
  | minus => simp

/-- A number in decimal is read with the sign before it. -/
theorem reads_signed (hsg : Sign negative sg) (hm : Natural m ds) (ht : Terminated t)
    (hfits : fits (signed negative m) = true) :
    Reads scalar (sg ++ ds ++ t) (Value.integer (signed negative m)) t := by
  obtain ⟨d, rest, hds, hd⟩ := hm.exists_digit
  obtain ⟨digits, hvalue, hdigits⟩ := reads_wholeDigits hm ht
  have hhead : (ds ++ t).head? = some d := by rw [hds]; rfl
  have hne : ∀ c : Char, c.isDigit = false → d ≠ c := by
    rintro c hc rfl
    exact absurd hd (by simp [hc])
  have hsign : Reads sign (sg ++ (ds ++ t)) negative (ds ++ t) := by
    refine reads_sign hsg ?_
    rw [hhead]
    exact ⟨by simpa using hne '+' rfl, by simpa using hne '-' rfl⟩
  have hinteger : Reads integer (sg ++ (ds ++ t)) (Value.integer (signed negative m)) t := by
    refine (refuses_based_signed hsg hm ht (by decide)).orElse_reads <|
      (refuses_based_signed hsg hm ht (by decide)).orElse_reads <|
      (refuses_based_signed hsg hm ht (by decide)).orElse_reads ?_
    refine hsign.bind (hdigits.bind ?_)
    rw [hvalue]
    exact reads_fitting hfits
  rw [List.append_assoc]
  refine reads_scalar_of_integer (hsg.startsNumber hhead hd) (refuses_dateTime_signed hsg hm ht)
    hsign ?_ hdigits ?_ hinteger
  · intro c hc
    obtain rfl : d = c := by simpa [hhead] using hc
    exact hd
  · intro c hc
    have hafter := ht c hc
    refine ⟨?_, ?_, ?_⟩ <;> (rintro rfl; exact absurd hafter (by decide))

end Signed

/-- A number in another base is read by the letter of its base. -/
theorem reads_based {letter : Char} {base : Nat} {ds : List Char} (hbase : Base letter base p)
    (hds : Digits p ds s) (ht : Terminated t) (hfits : fits (digitsValue base ds) = true) :
    Reads scalar ('0' :: letter :: s ++ t) (Value.integer (digitsValue base ds)) t := by
  have hsign : Reads sign ('0' :: letter :: (s ++ t)) false ('0' :: letter :: (s ++ t)) :=
    reads_sign (s := []) .none (by simp)
  have hread : Reads (based letter base p) ('0' :: letter :: (s ++ t))
      (Value.integer (digitsValue base ds)) t := by
    have hletter : Reads (literal ['0', letter]) ('0' :: letter :: (s ++ t)) () (s ++ t) :=
      reads_literal
    refine hletter.bind (Reads.bind (reads_digitsWith ?_ hds (ht.stops_digits ?_))
      (reads_fitting hfits))
    · cases hbase <;> rfl
    · cases hbase <;> decide
  refine reads_scalar_of_integer (by simp [startsNumber]) ?_ hsign (by simp) reads_lone_zero ?_ ?_
  · refine refuses_dateTime ?_
    rw [List.cons_append, List.cons_append, List.dropWhile_cons_of_pos (by decide),
      List.dropWhile_cons_of_neg (by cases hbase <;> decide)]
    cases hbase <;> simp
  · cases hbase <;> simp
  · cases hbase with
    | hex => exact hread.orElse
    | octal => exact (refuses_based (by simp)).orElse_reads hread.orElse
    | binary =>
      exact (refuses_based (by simp)).orElse_reads <|
        (refuses_based (by simp)).orElse_reads hread.orElse

/-- Every spelling of a datum is read as that datum. -/
theorem reads_scalar {d : Datum} (h : Spelled d s) (ht : Terminated t) :
    Reads scalar (s ++ t) d.value t := by
  cases h with
  | integer whole fits =>
    rcases whole.cases_sign with ⟨negative, sg, m, ds, rfl, rfl, hsg, hm⟩ |
      ⟨letter, base, p, ds, rest, rfl, rfl, hbase, hds⟩
    · exact reads_signed hsg hm ht fits
    · exact reads_based hbase hds ht fits
  | yes =>
    have hboolean : Reads boolean ("true".toList ++ t) (Value.boolean true) t := by
      refine Reads.orElse (reads_literal.bind ?_)
      exact reads_pure _ _
    exact (refuses_text (by simp)).bind.orElse_reads hboolean.orElse
  | no =>
    have hboolean : Reads boolean ("false".toList ++ t) (Value.boolean false) t := by
      refine (refuses_literal (by simp)).bind.orElse_reads (reads_literal.bind ?_)
      exact reads_pure _ _
    exact (refuses_text (by simp)).bind.orElse_reads hboolean.orElse
  | text quoted =>
    refine Reads.orElse ((reads_text quoted ht).bind ?_)
    exact reads_pure _ _

end RootedHeap.Toml
