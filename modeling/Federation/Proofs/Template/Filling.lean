import Federation.Proofs.Except
import Federation.Proofs.Template
import Mathlib.Data.List.TakeWhile

/-!
# Filling templates in

`Fills` is the grammar of templates together with what they stand for: a template is put
together from text without an opening brace and from the two placeholders, and each of these
is filled in where it stands.  A text that is no template has a first brace that opens no
known placeholder (`FirstStray`).  Main statement: filling a text in gives what the grammar
gives and fails otherwise, with the name that stands after this brace (`interpolate_iff_fills`).
-/

namespace Federation

namespace Template

/-- What a template stands for, with the names of an environment and an operation. -/
inductive Fills (environment operation : String) : String → String → Prop where
  | empty : Fills environment operation "" ""
  /-- Text without an opening brace stands for itself. -/
  | text {s t out : String} (hs : '\x7b' ∉ s.toList) (ht : Fills environment operation t out) :
    Fills environment operation (s ++ t) (s ++ out)
  | environment {t out : String} (ht : Fills environment operation t out) :
    Fills environment operation ("\x7benvironment\x7d" ++ t) (environment ++ out)
  | operation {t out : String} (ht : Fills environment operation t out) :
    Fills environment operation ("\x7boperation\x7d" ++ t) (operation ++ out)

/-- Whether what stands after an opening brace makes it that of a known placeholder. -/
def Opens (after : List Char) : Prop :=
  "environment\x7d".toList <+: after ∨ "operation\x7d".toList <+: after

/-- Whether the first brace of a text that opens no known placeholder stands between two
parts of it. -/
structure FirstStray (text before after : List Char) : Prop where
  split : text = before ++ '\x7b' :: after
  stray : ¬ Opens after
  /-- Any brace further to the left opens a placeholder. -/
  first : ∀ b a, text = b ++ '\x7b' :: a → b.length < before.length → Opens a

/-! ### Pieces -/

/-- A piece in front of a template is filled in where it stands. -/
theorem Fills.cons {environment operation t out : String} {p : Piece} (hp : p.IsPlain)
    (h : Fills environment operation t out) :
  Fills environment operation (String.ofList p.source ++ t)
    (String.ofList (p.render environment operation) ++ out)
  := by
  cases p with
  | char c =>
    apply Fills.text _ h
    simpa [Piece.source] using Ne.symm hp
  | environment =>
    rw [Piece.render, String.ofList_toList]
    apply Fills.environment h
  | operation =>
    rw [Piece.render, String.ofList_toList]
    apply Fills.operation h

theorem fills_pieces {pieces : List Piece} (h : ∀ p ∈ pieces, p.IsPlain)
    (environment operation : String) :
  Fills environment operation (String.ofList (pieces.flatMap Piece.source))
    (String.ofList (pieces.flatMap (Piece.render environment operation)))
  := by
  induction pieces with
  | nil => exact .empty
  | cons p pieces ih =>
    obtain ⟨hp, hpieces⟩ := List.forall_mem_cons.mp h
    rw [List.flatMap_cons, List.flatMap_cons, String.ofList_append, String.ofList_append]
    apply (ih hpieces).cons hp

/-- Whether pieces make up a template and what it stands for. -/
structure Spells (environment operation text out : String) (pieces : List Piece) : Prop where
  plain : ∀ p ∈ pieces, p.IsPlain
  source : text.toList = pieces.flatMap Piece.source
  render : out.toList = pieces.flatMap (Piece.render environment operation)

theorem Spells.append {environment operation s s' out out' : String} {pieces pieces' : List Piece}
    (h : Spells environment operation s out pieces)
    (h' : Spells environment operation s' out' pieces') :
  Spells environment operation (s ++ s') (out ++ out') (pieces ++ pieces')
  := by
  constructor
  · intro p hp
    rcases List.mem_append.mp hp with hp | hp
    · apply h.plain p hp
    · apply h'.plain p hp
  · rw [String.toList_append, List.flatMap_append, h.source, h'.source]
  · rw [String.toList_append, List.flatMap_append, h.render, h'.render]

/-- Text without an opening brace is spelled in its characters. -/
theorem spells_text {s : String} (h : '\x7b' ∉ s.toList) (environment operation : String) :
  Spells environment operation s s (s.toList.map .char)
  := by
  constructor
  · intro p hp
    obtain ⟨c, hc, rfl⟩ := List.mem_map.mp hp
    exact fun heq => h (heq ▸ hc)
  · rw [List.flatMap_map]
    symm
    apply List.flatMap_singleton'
  · rw [List.flatMap_map]
    symm
    apply List.flatMap_singleton'

theorem exists_spells_of_fills {environment operation text out : String}
    (h : Fills environment operation text out) :
  ∃ pieces, Spells environment operation text out pieces
  := by
  induction h with
  | empty => exact ⟨[], by simp, rfl, rfl⟩
  | text hs _ ih =>
    obtain ⟨pieces, hpieces⟩ := ih
    exact ⟨_, (spells_text hs environment operation).append hpieces⟩
  | environment _ ih =>
    obtain ⟨pieces, hpieces⟩ := ih
    have hname : Spells environment operation "\x7benvironment\x7d" environment [.environment] :=
      ⟨by simp [Piece.IsPlain], rfl, (List.append_nil _).symm⟩
    exact ⟨_, hname.append hpieces⟩
  | operation _ ih =>
    obtain ⟨pieces, hpieces⟩ := ih
    have hname : Spells environment operation "\x7boperation\x7d" operation [.operation] :=
      ⟨by simp [Piece.IsPlain], rfl, (List.append_nil _).symm⟩
    exact ⟨_, hname.append hpieces⟩

/-! ### Braces -/

/-- A brace opens a known placeholder exactly when a piece begins with it. -/
theorem opens_iff {after : List Char} :
  Opens after
    ↔ ∃ (p : Piece) (rest : List Char), p.IsPlain ∧ '\x7b' :: after = p.source ++ rest
  := by
  constructor
  · rintro (⟨rest, rfl⟩ | ⟨rest, rfl⟩)
    · exact ⟨.environment, rest, trivial, rfl⟩
    · exact ⟨.operation, rest, trivial, rfl⟩
  · rintro ⟨p, rest, hp, heq⟩
    cases p with
    | char c =>
      obtain ⟨hc, -⟩ := List.cons.inj heq
      exact absurd hc.symm hp
    | environment =>
      left
      obtain ⟨-, hafter⟩ := List.cons.inj heq
      exact ⟨rest, hafter.symm⟩
    | operation =>
      right
      obtain ⟨-, hafter⟩ := List.cons.inj heq
      exact ⟨rest, hafter.symm⟩

/-- A text is pieces up to its end or up to a brace that opens no known placeholder. -/
theorem exists_pieces_append (text : List Char) :
  ∃ (pieces : List Piece) (rest : List Char), (∀ p ∈ pieces, p.IsPlain)
    ∧ text = pieces.flatMap Piece.source ++ rest
    ∧ (rest = [] ∨ ∃ after, rest = '\x7b' :: after ∧ ¬ Opens after)
  := by
  induction hn : text.length using Nat.strongRecOn generalizing text with
  | _ n ih =>
    subst hn
    by_cases hpiece : ∃ (p : Piece) (rest : List Char), p.IsPlain ∧ text = p.source ++ rest
    · obtain ⟨p, rest, hp, rfl⟩ := hpiece
      have hpos : 0 < p.source.length := by
        cases p <;> exact Nat.zero_lt_succ _
      have hlt : rest.length < (p.source ++ rest).length := by
        rw [List.length_append]
        omega
      obtain ⟨pieces, rest', hplain, rfl, hrest⟩ := ih rest.length hlt rest rfl
      refine ⟨p :: pieces, rest', List.forall_mem_cons.mpr ⟨hp, hplain⟩, ?_, hrest⟩
      rw [List.flatMap_cons, List.append_assoc]
    · refine ⟨[], text, by simp, rfl, ?_⟩
      cases text with
      | nil => exact .inl rfl
      | cons c after =>
        right
        obtain rfl : c = '\x7b' :=
          Decidable.byContradiction fun hc => hpiece ⟨.char c, after, hc, rfl⟩
        refine ⟨after, rfl, ?_⟩
        intro hopens
        apply hpiece (opens_iff.mp hopens)

/-- The only brace in a piece is the one that it begins with. -/
theorem eq_nil_of_source_eq {p : Piece} {before after : List Char}
    (h : p.source = before ++ '\x7b' :: after) :
  before = []
  := by
  cases before with
  | nil => rfl
  | cons c before =>
    -- what stands behind the first character of a piece is without a brace
    have htail : '\x7b' ∉ p.source.tail := by
      cases p with
      | char c => apply List.not_mem_nil
      | environment => decide
      | operation => decide
    rw [h] at htail
    simp at htail

/-- The braces of pieces open known placeholders. -/
theorem opens_of_pieces {pieces : List Piece} (h : ∀ p ∈ pieces, p.IsPlain)
    {rest before after : List Char}
    (heq : pieces.flatMap Piece.source ++ rest = before ++ '\x7b' :: after)
    (hlt : before.length < (pieces.flatMap Piece.source).length) :
  Opens after
  := by
  induction pieces generalizing before with
  | nil => cases hlt
  | cons p pieces ih =>
    obtain ⟨hp, hpieces⟩ := List.forall_mem_cons.mp h
    rw [List.flatMap_cons, List.append_assoc] at heq
    rw [List.flatMap_cons, List.length_append] at hlt
    rcases List.append_eq_append_iff.mp heq with
      ⟨before', rfl, hbehind⟩ | ⟨inside, hsource, hbrace⟩
    · -- the brace stands behind the first piece
      apply ih hpieces hbehind
      rw [List.length_append] at hlt
      omega
    · cases inside with
      | nil =>
        have hfront : pieces.flatMap Piece.source ++ rest = [] ++ '\x7b' :: after := hbrace.symm
        rw [List.append_nil] at hsource
        apply ih hpieces hfront
        rw [hsource] at hlt
        simp only [List.length_nil]
        omega
      | cons c inside =>
        obtain ⟨rfl, rfl⟩ := List.cons.inj hbrace
        obtain rfl := eq_nil_of_source_eq hsource
        apply opens_iff.mpr
        refine ⟨p, pieces.flatMap Piece.source ++ rest, hp, ?_⟩
        rw [hsource]
        rfl

/-! ### The first brace that opens nothing -/

theorem firstStray_of_pieces {pieces : List Piece} (h : ∀ p ∈ pieces, p.IsPlain)
    {after : List Char} (hstray : ¬ Opens after) :
  FirstStray (pieces.flatMap Piece.source ++ '\x7b' :: after) (pieces.flatMap Piece.source) after
  := by
  constructor
  · rfl
  · apply hstray
  · intro b a heq hlt
    apply opens_of_pieces h heq hlt

/-- There is but one such brace. -/
theorem FirstStray.unique {text before after before' after' : List Char}
    (h : FirstStray text before after) (h' : FirstStray text before' after') :
  after = after'
  := by
  rcases Nat.lt_trichotomy before.length before'.length with hlt | heq | hgt
  · exact absurd (h'.first before after h.split hlt) h.stray
  · have hsplit := h.split.symm.trans h'.split
    exact (List.cons.inj (List.append_inj hsplit heq).2).2
  · exact absurd (h.first before' after' h'.split hgt) h'.stray

/-- Reading stops at a brace that opens no known placeholder, with what stands up to the next
closing brace. -/
theorem scan_stray {after : List Char} (h : ¬ Opens after) :
  scan none ('\x7b' :: after) = .error (after.takeWhile (· ≠ '\x7d'))
  := by
  rw [scan, if_pos rfl]
  by_cases hmem : '\x7d' ∈ after
  · obtain ⟨close, rest, rfl, hclose⟩ := List.eq_append_cons_of_mem hmem
    have htake : (close ++ '\x7d' :: rest).takeWhile (· ≠ '\x7d') = close := by
      rw [List.takeWhile_append_of_pos]
      · simp
      · intro c hc
        apply decide_eq_true
        rintro rfl
        apply hclose hc
    rw [scan_some_append [] hclose, htake]
    cases hp : placeholder? ([].reverse ++ close) with
    | none => rfl
    | some p =>
      exfalso
      apply h
      rcases placeholder?_eq_some_iff.mp hp with ⟨-, hname⟩ | ⟨-, hname⟩
      · left
        obtain rfl : close = "environment".toList := hname
        exact ⟨rest, rfl⟩
      · right
        obtain rfl : close = "operation".toList := hname
        exact ⟨rest, rfl⟩
  · rw [scan_some_of_notMem hmem, List.takeWhile_eq_self_iff.mpr]
    · rfl
    · intro c hc
      apply decide_eq_true
      rintro rfl
      apply hmem hc

/-- Reading fails exactly for the texts with a brace that opens no known placeholder, at the
first such brace. -/
theorem scan_eq_error_iff {text name : List Char} :
  scan none text = .error name
    ↔ ∃ before after, FirstStray text before after ∧ name = after.takeWhile (· ≠ '\x7d')
  := by
  obtain ⟨pieces, rest, hplain, rfl, hrest⟩ := exists_pieces_append text
  rcases hrest with rfl | ⟨after, rfl, hstray⟩
  · rw [List.append_nil, scan_flatMap_source hplain]
    constructor
    · intro h
      cases h
    · rintro ⟨before, after, hfirst, -⟩
      apply absurd _ hfirst.stray
      have hsplit := hfirst.split
      apply opens_of_pieces hplain ((List.append_nil _).trans hsplit)
      rw [hsplit]
      simp
  · have hfirst := firstStray_of_pieces hplain hstray
    rw [scan_flatMap_source_append hplain, scan_stray hstray]
    constructor
    · intro h
      cases h
      exact ⟨_, after, hfirst, rfl⟩
    · rintro ⟨before, after', hfirst', rfl⟩
      rw [hfirst.unique hfirst']
      rfl

end Template

/-! ### Filling in -/

theorem interpolate_eq (text environment operation : String) :
  interpolate text environment operation
    = match Template.scan none text.toList with
      | .ok pieces => .ok (Template.render ⟨pieces⟩ environment operation)
      | .error name => .error (.unknownPlaceholder text (String.ofList name))
  := by
  rw [interpolate, parseTemplate, Template.parse]
  cases Template.scan none text.toList <;> rfl

theorem interpolate_eq_ok_iff {text environment operation out : String} :
  interpolate text environment operation = .ok out
    ↔ ∃ pieces, Template.scan none text.toList = .ok pieces
      ∧ out = Template.render ⟨pieces⟩ environment operation
  := by
  rw [interpolate_eq]
  cases Template.scan none text.toList with
  | ok pieces => simp [eq_comm]
  | error name => simp

theorem interpolate_eq_error_iff {text environment operation : String} {e : CompileError} :
  interpolate text environment operation = .error e
    ↔ ∃ name, Template.scan none text.toList = .error name
      ∧ e = .unknownPlaceholder text (String.ofList name)
  := by
  rw [interpolate_eq]
  cases Template.scan none text.toList with
  | ok pieces => simp
  | error name => simp [eq_comm]

theorem exists_interpolate_iff {text environment operation : String} :
  (∃ out, interpolate text environment operation = .ok out) ↔ Template.IsTemplate text
  := by
  simp only [interpolate_eq_ok_iff]
  constructor
  · rintro ⟨-, pieces, hscan, -⟩
    exact ⟨pieces, Template.scan_eq_ok_iff.mp hscan⟩
  · rintro ⟨pieces, hpieces⟩
    exact ⟨_, pieces, Template.scan_eq_ok_iff.mpr hpieces, rfl⟩

/-- What is filled in is what the grammar gives. -/
theorem interpolate_eq_ok_iff_fills {text environment operation out : String} :
  interpolate text environment operation = .ok out
    ↔ Template.Fills environment operation text out
  := by
  rw [interpolate_eq_ok_iff]
  constructor
  · rintro ⟨pieces, hscan, rfl⟩
    obtain ⟨hplain, htext⟩ := Template.scan_eq_ok_iff.mp hscan
    rw [← String.ofList_toList (s := text), htext]
    apply Template.fills_pieces hplain
  · intro h
    obtain ⟨pieces, hpieces⟩ := Template.exists_spells_of_fills h
    refine ⟨pieces, Template.scan_eq_ok_iff.mpr ⟨hpieces.plain, hpieces.source⟩, ?_⟩
    apply String.toList_inj.mp
    rw [hpieces.render, Template.render, String.toList_ofList]

/-- Behind a template, a text is filled in as it is on its own. -/
theorem interpolate_append {text environment operation out : String}
    (h : interpolate text environment operation = .ok out) (t r : String) :
  interpolate (text ++ t) environment operation = .ok r
    ↔ ∃ more, interpolate t environment operation = .ok more ∧ r = out ++ more
  := by
  obtain ⟨pieces, hscan, rfl⟩ := interpolate_eq_ok_iff.mp h
  obtain ⟨hplain, htext⟩ := Template.scan_eq_ok_iff.mp hscan
  have hrender : ∀ more : List Template.Piece,
      Template.render ⟨pieces ++ more⟩ environment operation
        = Template.render ⟨pieces⟩ environment operation
          ++ Template.render ⟨more⟩ environment operation := by
    intro more
    rw [Template.render, Template.render, Template.render, ← String.ofList_append,
      List.flatMap_append]
  rw [interpolate_eq, String.toList_append, htext, Template.scan_flatMap_source_append hplain,
    interpolate_eq]
  cases Template.scan none t.toList with
  | ok more => simp [Except.map, hrender, eq_comm]
  | error name => simp [Except.map]

/-- A text is filled in exactly when the grammar makes it a template, and as the grammar says;
otherwise filling in fails with the text and with what stands behind its first brace that opens
no known placeholder, up to the next closing brace if there is one.  The names have no part in
whether it fails and with what, and a template followed by another text is filled in as the two
apart. -/
theorem interpolate_iff_fills (text environment operation : String) :
  (∀ out, interpolate text environment operation = .ok out
      ↔ Template.Fills environment operation text out)
    ∧ (∀ e, interpolate text environment operation = .error e
      ↔ ∃ before after, Template.FirstStray text.toList before after
        ∧ e = .unknownPlaceholder text (String.ofList (after.takeWhile (· ≠ '\x7d'))))
    ∧ (∀ environment' operation',
      ((∃ out, interpolate text environment operation = .ok out)
          ↔ ∃ out, interpolate text environment' operation' = .ok out)
        ∧ ∀ e, interpolate text environment operation = .error e
          ↔ interpolate text environment' operation' = .error e)
    ∧ ∀ out, interpolate text environment operation = .ok out → ∀ t r,
      interpolate (text ++ t) environment operation = .ok r
        ↔ ∃ more, interpolate t environment operation = .ok more ∧ r = out ++ more
  := by
  refine ⟨?_, ?_, ?_, ?_⟩
  · intro out
    exact interpolate_eq_ok_iff_fills
  · intro e
    rw [interpolate_eq_error_iff]
    constructor
    · rintro ⟨name, hscan, rfl⟩
      obtain ⟨before, after, hfirst, rfl⟩ := Template.scan_eq_error_iff.mp hscan
      exact ⟨before, after, hfirst, rfl⟩
    · rintro ⟨before, after, hfirst, rfl⟩
      exact ⟨_, Template.scan_eq_error_iff.mpr ⟨before, after, hfirst, rfl⟩, rfl⟩
  · intro environment' operation'
    constructor
    · rw [exists_interpolate_iff, exists_interpolate_iff]
    · intro e
      rw [interpolate_eq_error_iff, interpolate_eq_error_iff]
  · intro out h
    apply interpolate_append h

/-- The name of a placeholder that is not known may have an opening brace in it. -/
example : interpolate "tf-\x7bteam-\x7benvironment\x7d" "dev" "plan"
    = .error (.unknownPlaceholder "tf-\x7bteam-\x7benvironment\x7d" "team-\x7benvironment") := by
  decide

end Federation
