import Federation.Binding.Compile
import Mathlib.Tactic.Use

/-!
# The grammar of templates

A template is a sequence of pieces: placeholders, and characters other than an opening
brace.  `scan_eq_ok_iff` says that reading accepts the texts that pieces are written as,
and no others.  `fill` replaces the placeholders of any text from left to right without
looking at what it has put in; `render_eq_filled` says that this is what rendering a
template does.
-/

namespace Federation.Template

/-- The characters that a piece is written as. -/
def Piece.source : Piece → List Char
  | .char c => [c]
  | .environment => '\x7b' :: "environment".toList ++ ['\x7d']
  | .operation => '\x7b' :: "operation".toList ++ ['\x7d']

/-- Whether a piece may stand in a template: an opening brace may not stand for itself. -/
def Piece.IsPlain : Piece → Prop
  | .char c => c ≠ '\x7b'
  | .environment => True
  | .operation => True

/-- Whether a text is written in pieces that may stand in a template. -/
def IsTemplate (text : String) : Prop :=
  ∃ pieces : List Piece, (∀ p ∈ pieces, p.IsPlain) ∧ text.toList = pieces.flatMap Piece.source

/-! ### Reading -/

/-- A name in braces is a placeholder exactly when it is written as one. -/
theorem placeholder?_eq_some_iff {name : List Char} {p : Piece} :
  placeholder? name = some p
    ↔ (p = .environment ∧ name = "environment".toList)
      ∨ (p = .operation ∧ name = "operation".toList)
  := by
  rw [placeholder?]
  constructor
  · intro h
    split at h
    · cases h
      left
      constructor
      · rfl
      · assumption
    · split at h
      · cases h
        right
        constructor
        · rfl
        · assumption
      · cases h
  · rintro (⟨rfl, rfl⟩ | ⟨rfl, rfl⟩)
    · rfl
    · rfl

/-- Inside braces, what stands up to the next closing brace decides. -/
theorem scan_some_append (name : List Char) {close : List Char} (h : '\x7d' ∉ close)
    (rest : List Char) :
  scan (some name) (close ++ '\x7d' :: rest)
    = match placeholder? (name.reverse ++ close) with
      | some piece => (scan none rest).map (piece :: ·)
      | none => .error (name.reverse ++ close)
  := by
  induction close generalizing name with
  | nil =>
    rw [List.nil_append, List.append_nil]
    cases hplaceholder : placeholder? name.reverse with
    | none => simp [scan, hplaceholder]
    | some piece => simp [scan, hplaceholder]
  | cons c close ih =>
    have hc : c ≠ '\x7d' := fun e => h (e ▸ List.mem_cons_self)
    have hrest : '\x7d' ∉ close := fun e => h (List.mem_cons_of_mem _ e)
    rw [List.cons_append, scan, if_neg hc, ih (c :: name) hrest]
    simp

theorem scan_some_of_notMem {name text : List Char} (h : '\x7d' ∉ text) :
  scan (some name) text = .error (name.reverse ++ text)
  := by
  induction text generalizing name with
  | nil => simp [scan]
  | cons c text ih =>
    have hc : c ≠ '\x7d' := fun e => h (e ▸ List.mem_cons_self)
    have hrest : '\x7d' ∉ text := fun e => h (List.mem_cons_of_mem _ e)
    rw [scan, if_neg hc, ih hrest]
    simp

theorem scan_char {c : Char} {text : List Char} (h : c ≠ '\x7b') :
  scan none (c :: text) = (scan none text).map (.char c :: ·)
  := by
  rw [scan, if_neg h]

/-- A piece in front of a text is read as that piece. -/
theorem scan_source_append {p : Piece} (hp : p.IsPlain) (text : List Char) :
  scan none (p.source ++ text) = (scan none text).map (p :: ·)
  := by
  cases p with
  | char c => apply scan_char hp
  | environment =>
    have h : '\x7d' ∉ "environment".toList := by decide
    rw [Piece.source, List.append_assoc, List.cons_append, scan, if_pos rfl]
    apply scan_some_append [] h
  | operation =>
    have h : '\x7d' ∉ "operation".toList := by decide
    rw [Piece.source, List.append_assoc, List.cons_append, scan, if_pos rfl]
    apply scan_some_append [] h

/-- Pieces in front of a text are read as these pieces. -/
theorem scan_flatMap_source_append {pieces : List Piece} (h : ∀ p ∈ pieces, p.IsPlain)
    (text : List Char) :
  scan none (pieces.flatMap Piece.source ++ text) = (scan none text).map (pieces ++ ·)
  := by
  induction pieces with
  | nil =>
    rw [List.flatMap_nil, List.nil_append]
    cases scan none text <;> rfl
  | cons p pieces ih =>
    rw [List.flatMap_cons, List.append_assoc, scan_source_append (h p List.mem_cons_self),
      ih fun q hq => h q (List.mem_cons_of_mem _ hq)]
    cases scan none text <;> rfl

/-- What pieces are written as is read as these pieces. -/
theorem scan_flatMap_source {pieces : List Piece} (h : ∀ p ∈ pieces, p.IsPlain) :
  scan none (pieces.flatMap Piece.source) = .ok pieces
  := by
  have happend := scan_flatMap_source_append h []
  rw [List.append_nil] at happend
  rw [happend, scan, Except.map, List.append_nil]

/-- What stands after an opening brace and is read as pieces begins with a placeholder. -/
theorem exists_of_scan_brace {text : List Char} {pieces : List Piece}
    (h : scan none ('\x7b' :: text) = .ok pieces) :
  ∃ p rest more, p.IsPlain ∧ '\x7b' :: text = p.source ++ rest ∧ rest.length < text.length
    ∧ scan none rest = .ok more ∧ pieces = p :: more
  := by
  rw [scan, if_pos rfl] at h
  by_cases hmem : '\x7d' ∈ text
  · obtain ⟨close, rest, rfl, hclose⟩ := List.eq_append_cons_of_mem hmem
    rw [scan_some_append [] hclose] at h
    cases hp : placeholder? ([].reverse ++ close) with
    | none =>
      rw [hp] at h
      cases h
    | some p =>
      rw [hp] at h
      cases hrest : scan none rest with
      | error e =>
        simp only [hrest] at h
        cases h
      | ok more =>
        simp only [hrest] at h
        cases h
        use p, rest, more
        rcases placeholder?_eq_some_iff.mp hp with ⟨rfl, hname⟩ | ⟨rfl, hname⟩
        · simp_all [Piece.IsPlain, Piece.source]
          omega
        · simp_all [Piece.IsPlain, Piece.source]
          omega
  · rw [scan_some_of_notMem hmem] at h
    cases h

/-- A text that is read as pieces is what these pieces are written as. -/
theorem eq_flatMap_source_of_scan {text : List Char} {pieces : List Piece}
    (h : scan none text = .ok pieces) :
  (∀ p ∈ pieces, p.IsPlain) ∧ text = pieces.flatMap Piece.source
  := by
  induction hn : text.length using Nat.strongRecOn generalizing text pieces with
  | _ n ih =>
    subst hn
    cases text with
    | nil =>
      cases h
      simp
    | cons c text =>
      by_cases hc : c = '\x7b'
      · subst hc
        obtain ⟨p, rest, more, hp, htext, hlt, hmore, rfl⟩ := exists_of_scan_brace h
        obtain ⟨hplain, hrest⟩ := ih rest.length (by simp; omega) hmore rfl
        constructor
        · intro q hq
          rcases List.mem_cons.mp hq with rfl | hq
          · apply hp
          · apply hplain q hq
        · rw [htext, List.flatMap_cons, ← hrest]
      · rw [scan_char hc] at h
        cases hmore : scan none text with
        | error e =>
          rw [hmore] at h
          cases h
        | ok more =>
          rw [hmore] at h
          cases h
          obtain ⟨hplain, hrest⟩ := ih text.length (by simp) hmore rfl
          constructor
          · intro q hq
            rcases List.mem_cons.mp hq with rfl | hq
            · apply hc
            · apply hplain q hq
          · rw [List.flatMap_cons, ← hrest]
            rfl

/-- Reading accepts exactly the texts that pieces are written as. -/
theorem scan_eq_ok_iff {text : List Char} {pieces : List Piece} :
  scan none text = .ok pieces
    ↔ (∀ p ∈ pieces, p.IsPlain) ∧ text = pieces.flatMap Piece.source
  := by
  constructor
  · apply eq_flatMap_source_of_scan
  · rintro ⟨h, rfl⟩
    apply scan_flatMap_source h

theorem exists_parse_iff {text : String} :
  (∃ t, parse text = .ok t) ↔ IsTemplate text
  := by
  rw [parse]
  constructor
  · rintro ⟨t, h⟩
    cases hs : scan none text.toList with
    | error name =>
      rw [hs] at h
      cases h
    | ok pieces =>
      use pieces
      apply scan_eq_ok_iff.mp hs
  · rintro ⟨pieces, hp⟩
    use ⟨pieces⟩
    rw [scan_eq_ok_iff.mpr hp]

/-! ### Replacing placeholders -/

/-- Replaces the placeholders in a text from left to right. -/
def fill (environment operation : List Char) : List Char → List Char
  | [] => []
  | c :: rest =>
    if Piece.environment.source <+: c :: rest then
      environment ++ fill environment operation (rest.drop "environment\x7d".length)
    else if Piece.operation.source <+: c :: rest then
      operation ++ fill environment operation (rest.drop "operation\x7d".length)
    else c :: fill environment operation rest
termination_by text => text.length

/-- A text with the placeholders replaced by names. -/
def filled (text environment operation : String) : String :=
  String.ofList (fill environment.toList operation.toList text.toList)

/-- A piece in front of a text is replaced by what it stands for. -/
theorem fill_source_append (environment operation : String) {p : Piece} (hp : p.IsPlain)
    (text : List Char) :
  fill environment.toList operation.toList (p.source ++ text)
    = p.render environment operation ++ fill environment.toList operation.toList text
  := by
  cases p with
  | char c =>
    have hc : '\x7b' ≠ c := Ne.symm hp
    rw [Piece.source, List.cons_append, fill, if_neg, if_neg]
    · rfl
    · simp [Piece.source, hc]
    · simp [Piece.source, hc]
  | environment =>
    rw [show Piece.environment.source ++ text
      = '\x7b' :: ("environment\x7d".toList ++ text) from rfl, fill, if_pos]
    · rfl
    · apply List.prefix_append Piece.environment.source
  | operation =>
    rw [show Piece.operation.source ++ text
      = '\x7b' :: ("operation\x7d".toList ++ text) from rfl, fill, if_neg, if_pos]
    · rfl
    · apply List.prefix_append Piece.operation.source
    · simp [Piece.source]

/-- Rendering a template replaces the placeholders of its text. -/
theorem render_eq_filled {text : String} {t : Template} (h : parse text = .ok t)
    (environment operation : String) :
  t.render environment operation = filled text environment operation
  := by
  rw [parse] at h
  cases hs : scan none text.toList with
  | error name =>
    rw [hs] at h
    cases h
  | ok pieces =>
    rw [hs] at h
    cases h
    obtain ⟨hplain, htext⟩ := scan_eq_ok_iff.mp hs
    rw [render, filled, htext]
    congr 1
    clear hs htext
    induction pieces with
    | nil => simp [fill]
    | cons p pieces ih =>
      rw [List.flatMap_cons, List.flatMap_cons,
        fill_source_append _ _ (hplain p List.mem_cons_self),
        ih fun q hq => hplain q (List.mem_cons_of_mem _ hq)]

end Federation.Template
