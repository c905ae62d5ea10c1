import RootedHeap.Text.Reader

/-!
What readers do, without a look at how a rest of a text is kept. `Reads r s a t` says that `r` takes
`a` off the front of `s` and leaves `t`, `Refuses r s` that it finds nothing there. Each way to
build a reader has one lemma for each of the two, so that a reader is followed through a text by
applying the lemmas in the order in which it was built.
-/

namespace RootedHeap.Text.Reader

variable {α β : Type} {r q : Reader α} {f : α → Reader β} {a : α} {b : β} {s t u : List Char}
  {c : Char} {p : Char → Bool}

/-- A reader takes a value off the front of a text and leaves the rest. -/
def Reads (r : Reader α) (s : List Char) (a : α) (t : List Char) : Prop :=
  r (.ofList s) = some (a, .ofList t)

/-- A reader finds nothing at the front of a text. -/
def Refuses (r : Reader α) (s : List Char) : Prop := r (.ofList s) = none

/-- A text does not start with a character that has a property. -/
def Stops (p : Char → Bool) (s : List Char) : Prop := ∀ c ∈ s.head?, p c = false

/-! ### One reader after another, one or the other -/

theorem reads_pure (a : α) (s : List Char) : Reads (pure a) s a s := rfl

theorem refuses_failure (s : List Char) : Refuses (failure : Reader α) s := rfl

theorem Reads.bind (hr : Reads r s a t) (hf : Reads (f a) t b u) : Reads (r >>= f) s b u := by
  show (r (.ofList s)).bind (fun found => f found.1 found.2) = _
  rw [hr]
  exact hf

theorem Reads.bind_refuses (hr : Reads r s a t) (hf : Refuses (f a) t) : Refuses (r >>= f) s := by
  show (r (.ofList s)).bind (fun found => f found.1 found.2) = _
  rw [hr]
  exact hf

theorem Refuses.bind (hr : Refuses r s) : Refuses (r >>= f) s := by
  show (r (.ofList s)).bind (fun found => f found.1 found.2) = _
  rw [hr]
  rfl

theorem Reads.map {g : α → β} (hr : Reads r s a t) : Reads (g <$> r) s (g a) t := by
  show (r (.ofList s)).bind (fun found => some (g found.1, found.2)) = _
  rw [hr]
  rfl

theorem Refuses.map {g : α → β} (hr : Refuses r s) : Refuses (g <$> r) s := by
  show (r (.ofList s)).bind (fun found => some (g found.1, found.2)) = _
  rw [hr]
  rfl

theorem Reads.orElse (hr : Reads r s a t) : Reads (r <|> q) s a t := by
  show (r (.ofList s) <|> q (.ofList s)) = _
  rw [hr]
  rfl

theorem Refuses.orElse_reads (hr : Refuses r s) (hq : Reads q s a t) : Reads (r <|> q) s a t := by
  show (r (.ofList s) <|> q (.ofList s)) = _
  rw [hr]
  exact hq

theorem Refuses.orElse (hr : Refuses r s) (hq : Refuses q s) : Refuses (r <|> q) s := by
  show (r (.ofList s) <|> q (.ofList s)) = _
  rw [hr]
  exact hq

theorem Reads.maybe (hr : Reads r s a t) : Reads (maybe r) s (some a) t := hr.map.orElse

theorem Refuses.maybe (hr : Refuses r s) : Reads (maybe r) s none s :=
  Refuses.orElse_reads (Refuses.map hr) (reads_pure _ _)

theorem Reads.ahead (hr : Reads r s a t) : Reads (ahead r) s a s := by
  show (r (.ofList s)).map _ = _
  rw [hr]
  rfl

theorem Refuses.ahead (hr : Refuses r s) : Refuses (ahead r) s := by
  show (r (.ofList s)).map _ = _
  rw [hr]
  rfl

/-! ### Characters -/

theorem drop_ofList (xs s : List Char) : (Rest.ofList (xs ++ s)).drop xs.length = .ofList s :=
  Rest.eq_of_chars List.drop_left

theorem reads_one (hc : p c = true) : Reads (one p) (c :: s) c s := by
  show (if p c then some (c, (Rest.ofList ([c] ++ s)).drop 1) else none) = _
  rw [if_pos hc]
  exact congrArg (fun rest => some (c, rest)) (drop_ofList [c] s)

theorem refuses_one (hs : Stops p s) : Refuses (one p) s := by
  cases s with
  | nil => rfl
  | cons c s =>
    have hc : p c = false := hs c rfl
    show (if p c then _ else none) = _
    rw [if_neg (by simp [hc])]

theorem reads_char : Reads (char c) (c :: s) () s := by
  have hone : Reads (one (· == c)) (c :: s) c s := reads_one (beq_self_eq_true c)
  exact hone.bind (reads_pure () s)

theorem refuses_char (hs : s.head? ≠ some c) : Refuses (char c) s := by
  refine (refuses_one ?_).bind
  intro d hd
  have hne : d ≠ c := fun heq => hs (heq ▸ hd)
  simpa using hne

theorem reads_literal {xs : List Char} : Reads (literal xs) (xs ++ s) () s := by
  induction xs with
  | nil => exact reads_pure _ _
  | cons x xs ih => exact reads_char.bind ih

theorem refuses_literal_cons {xs : List Char} (hs : s.head? ≠ some c) :
    Refuses (literal (c :: xs)) s :=
  (refuses_char hs).bind

theorem refuses_literal {xs : List Char} (hs : ¬ xs <+: s) : Refuses (literal xs) s := by
  induction xs generalizing s with
  | nil => exact absurd List.nil_prefix hs
  | cons x xs ih =>
    by_cases hx : s.head? = some x
    · obtain ⟨s', rfl⟩ := List.head?_eq_some_iff.1 hx
      exact reads_char.bind_refuses (ih (by simpa using hs))
    · exact refuses_literal_cons hx

theorem takeWhile_append {xs : List Char} (hxs : ∀ x ∈ xs, p x = true) (hs : Stops p s) :
    (xs ++ s).takeWhile p = xs := by
  have hnil : s.takeWhile p = [] := by
    cases s with
    | nil => rfl
    | cons c s => rw [List.takeWhile_cons_of_neg (by simp [hs c rfl])]
  rw [List.takeWhile_append_of_pos hxs, hnil, List.append_nil]

theorem reads_takeWhile {xs : List Char} (hxs : ∀ x ∈ xs, p x = true) (hs : Stops p s) :
    Reads (takeWhile p) (xs ++ s) xs s := by
  show some ((xs ++ s).takeWhile p, (Rest.ofList (xs ++ s)).drop ((xs ++ s).takeWhile p).length) = _
  rw [takeWhile_append hxs hs, drop_ofList]

theorem reads_takeSome {xs : List Char} (hne : xs ≠ []) (hxs : ∀ x ∈ xs, p x = true)
    (hs : Stops p s) : Reads (takeSome p) (xs ++ s) xs s := by
  refine (reads_takeWhile hxs hs).bind ?_
  rw [if_neg (by simpa using hne)]
  exact reads_pure _ _

theorem refuses_takeSome (hs : Stops p s) : Refuses (takeSome p) s := by
  have hnone : Reads (takeWhile p) s [] s := by
    simpa using reads_takeWhile (List.forall_mem_nil _) hs
  exact Reads.bind_refuses hnone (refuses_failure _)

theorem reads_atEnd : Reads atEnd [] () [] := rfl

/-! ### One item after another -/

theorem Refuses.many (hr : Refuses r s) : Reads (many r) s [] s := by
  show Reader.many r (.ofList s) = _
  rw [Reader.many.eq_def, hr]

theorem Reads.many {as : List α} (hr : Reads r s a t) (hlt : t.length < s.length)
    (hmore : Reads (many r) t as u) : Reads (many r) s (a :: as) u := by
  show Reader.many r (.ofList s) = _
  rw [Reader.many.eq_def, hr]
  show (if t.length < s.length then _ else _) = _
  rw [if_pos hlt, hmore]
  rfl

/-- An item that no separator follows is the only one. -/
theorem Reads.separated_one {separator : Reader Unit} (hr : Reads r s a t)
    (hsep : Refuses separator t) : Reads (separated separator r) s [a] t := by
  refine Reads.orElse (hr.bind ?_)
  exact Reads.bind (Refuses.many hsep.bind) (reads_pure _ _)

theorem Reads.whole (hr : Reads r s a []) : whole r s = some a := by
  show Option.map Prod.fst ((r >>= fun a => atEnd >>= fun _ => pure a) (.ofList s)) = _
  rw [hr.bind (reads_atEnd.bind (reads_pure a []))]
  rfl

end RootedHeap.Text.Reader
