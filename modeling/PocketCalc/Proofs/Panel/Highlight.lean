import Mathlib.Data.List.Chain
import PocketCalc.Panel.Highlight

/-!
# Highlighting cuts an expression into runs and symbols

The pieces of an expression are in order and none is missing: the characters of the highlighted line
are those of the expression (`text_highlight`). A run of digits and points is one piece as a whole
(`pieces_run`), and an expression can be cut into pieces on either side of a place where no run
goes on (`pieces_append`). So the spans of the highlighted line are the maximal runs of the
expression and its other characters, each where it stands (`highlight_runs_and_symbols`).
-/

namespace PocketCalc.Panel

open Screen

def Piece.text : Piece → Text
  | .number digits => digits
  | .symbol c => [c]

theorem Piece.text_span (base : Style) (p : Piece) : (p.span base).text = p.text := by
  cases p <;> rfl

theorem flatMap_pieces (t : Text) : (pieces t).flatMap Piece.text = t := by
  induction t with
  | nil => rfl
  | cons c rest ih =>
    rw [pieces]
    split
    · -- A digit or a point begins a number or lengthens the one behind it.
      split
      · rename_i digits more hpieces
        rw [hpieces] at ih
        exact congrArg (c :: ·) ih
      · exact congrArg (c :: ·) ih
    · exact congrArg (c :: ·) ih

theorem text_map_span (base : Style) (ps : List Piece) :
    (ps.map (Piece.span base)).flatMap Span.text = ps.flatMap Piece.text := by
  rw [List.flatMap_map]
  simp only [Piece.text_span]

/-- **A highlighted expression reads as the expression.** -/
theorem text_highlight (base : Style) (t : Text) :
    (highlight base t).flatMap Span.text = t :=
  (text_map_span base (pieces t)).trans (flatMap_pieces t)

/-! ## Where pieces begin and end -/

theorem pieces_symbol {c : Char} (hc : isNumeric c = false) (rest : Text) :
    pieces (c :: rest) = .symbol c :: pieces rest := by
  rw [pieces, if_neg (by simp [hc])]

/-- A digit or a point before a number belongs to it. -/
theorem pieces_lengthen {c : Char} (hc : isNumeric c) {rest digits : Text} {more : List Piece}
    (hrest : pieces rest = .number digits :: more) :
    pieces (c :: rest) = .number (c :: digits) :: more := by
  rw [pieces, if_pos hc, hrest]

/-- A digit or a point before anything else begins a number. -/
theorem pieces_begin {c : Char} (hc : isNumeric c) {rest : Text}
    (hrest : ∀ digits more, pieces rest ≠ .number digits :: more) :
    pieces (c :: rest) = .number [c] :: pieces rest := by
  rw [pieces, if_pos hc]
  split
  · rename_i digits more hpieces
    exact absurd hpieces (hrest digits more)
  · rfl

theorem pieces_ne_number {t : Text} (h : ∀ c, t.head? = some c → isNumeric c = false)
    (digits : Text) (more : List Piece) : pieces t ≠ .number digits :: more := by
  cases t with
  | nil => simp [pieces]
  | cons c rest =>
    rw [pieces_symbol (h c rfl)]
    simp

theorem pieces_ne_nil {t : Text} (h : t ≠ []) : pieces t ≠ [] := by
  intro hnil
  have htext := flatMap_pieces t
  rw [hnil] at htext
  exact h htext.symm

/-- **A run is one piece**, if it does not go on behind its end. -/
theorem pieces_run {run rest : Text} (hne : run ≠ []) (hrun : ∀ c ∈ run, isNumeric c)
    (hrest : ∀ c, rest.head? = some c → isNumeric c = false) :
    pieces (run ++ rest) = .number run :: pieces rest := by
  induction run with
  | nil => exact absurd rfl hne
  | cons c run ih =>
    have hc : isNumeric c := hrun c List.mem_cons_self
    cases run with
    | nil => exact pieces_begin hc (pieces_ne_number hrest)
    | cons d run =>
      have htail := ih (List.cons_ne_nil d run) fun x hx => hrun x (List.mem_cons_of_mem c hx)
      exact pieces_lengthen hc htail

/-- **An expression can be cut in two** wherever a character is not part of a run: its pieces are
those of the two parts. -/
theorem pieces_append {t u : Text}
    (h : ∀ c d, t.getLast? = some c → u.head? = some d →
      isNumeric c = false ∨ isNumeric d = false) :
    pieces (t ++ u) = pieces t ++ pieces u := by
  induction t with
  | nil => rfl
  | cons c rest ih =>
    have hrest : pieces (rest ++ u) = pieces rest ++ pieces u :=
      ih fun x d hx => h x d (by simp [List.getLast?_cons, hx])
    rw [List.cons_append]
    cases hc : isNumeric c with
    | false => rw [pieces_symbol hc, pieces_symbol hc, hrest, List.cons_append]
    | true =>
      cases hpieces : pieces rest with
      | nil =>
        -- Here `c` is the last character before the cut.
        obtain rfl : rest = [] := by
          by_contra hne
          exact pieces_ne_nil hne hpieces
        have hu : ∀ d, u.head? = some d → isNumeric d = false := fun d hd =>
          (h c d rfl hd).resolve_left (by simp [hc])
        have hend : pieces [c] = [.number [c]] := pieces_begin hc (by simp [pieces])
        rw [List.nil_append, pieces_begin hc (pieces_ne_number hu), hend, List.singleton_append]
      | cons p more =>
        rw [hpieces, List.cons_append] at hrest
        cases p with
        | number digits =>
          rw [pieces_lengthen hc hrest, pieces_lengthen hc hpieces, List.cons_append]
        | symbol d =>
          rw [pieces_begin hc (by simp [hrest]), pieces_begin hc (by simp [hpieces]), hrest,
            hpieces]
          rfl

/-! ## What pieces are -/

theorem isNumeric_iff {c : Char} : isNumeric c = true ↔ c.isDigit ∨ c = '.' := by
  simp [isNumeric]

theorem isNumeric_eq_false_iff {c : Char} : isNumeric c = false ↔ ¬(c.isDigit ∨ c = '.') := by
  rw [← isNumeric_iff, Bool.not_eq_true]

/-- A text of digits and points, not empty. -/
def IsNumeral (w : Text) : Prop :=
  w ≠ [] ∧ ∀ c ∈ w, c.isDigit ∨ c = '.'

/-- A number has digits or points, and a symbol is neither. -/
def Piece.IsProper : Piece → Prop
  | .number digits => IsNumeral digits
  | .symbol c => ¬(c.isDigit ∨ c = '.')

def Piece.IsNumber (p : Piece) : Prop :=
  ∃ digits, p = .number digits

theorem Piece.IsProper.isNumber_iff {p : Piece} (h : p.IsProper) :
    p.IsNumber ↔ IsNumeral p.text := by
  cases p with
  | number digits => exact ⟨fun _ => h, fun _ => ⟨digits, rfl⟩⟩
  | symbol c =>
    constructor
    · rintro ⟨digits, heq⟩
      cases heq
    · rintro ⟨-, hnumeral⟩
      exact absurd (hnumeral c List.mem_cons_self) h

theorem Piece.IsProper.text_ne_nil {p : Piece} (h : p.IsProper) : p.text ≠ [] := by
  cases p with
  | number digits => exact h.1
  | symbol c => exact List.cons_ne_nil c []

/-- Of two neighbours one at most is a number. -/
def Piece.Apart (p q : Piece) : Prop :=
  ¬ (p.IsNumber ∧ q.IsNumber)

theorem Piece.apart_symbol (c : Char) (q : Piece) : (Piece.symbol c).Apart q := by
  rintro ⟨⟨digits, heq⟩, -⟩
  cases heq

/-- What a character makes of the pieces behind it, by cases: a symbol, a longer first number, or a
number of its own before what is none. -/
theorem pieces_cons_cases (c : Char) (rest : Text) :
    isNumeric c = false ∧ pieces (c :: rest) = .symbol c :: pieces rest ∨
      isNumeric c = true ∧
        ((∃ digits more, pieces rest = .number digits :: more ∧
            pieces (c :: rest) = .number (c :: digits) :: more) ∨
          (∀ digits more, pieces rest ≠ .number digits :: more) ∧
            pieces (c :: rest) = .number [c] :: pieces rest) := by
  cases hc : isNumeric c with
  | false => exact .inl ⟨rfl, pieces_symbol hc rest⟩
  | true =>
    refine .inr ⟨rfl, ?_⟩
    by_cases hnumber : ∃ digits more, pieces rest = .number digits :: more
    · obtain ⟨digits, more, hrest⟩ := hnumber
      exact .inl ⟨digits, more, hrest, pieces_lengthen hc hrest⟩
    · have hrest : ∀ digits more, pieces rest ≠ .number digits :: more :=
        fun digits more heq => hnumber ⟨digits, more, heq⟩
      exact .inr ⟨hrest, pieces_begin hc hrest⟩

theorem isProper_of_mem_pieces {t : Text} : ∀ p ∈ pieces t, p.IsProper := by
  induction t with
  | nil => simp [pieces]
  | cons c rest ih =>
    rcases pieces_cons_cases c rest with
      ⟨hc, h⟩ | ⟨hc, ⟨digits, more, hrest, h⟩ | ⟨-, h⟩⟩ <;> rw [h, List.forall_mem_cons]
    · exact ⟨isNumeric_eq_false_iff.1 hc, ih⟩
    · rw [hrest, List.forall_mem_cons] at ih
      have hdigits : IsNumeral digits := ih.1
      exact ⟨⟨List.cons_ne_nil c digits,
        List.forall_mem_cons.2 ⟨isNumeric_iff.1 hc, hdigits.2⟩⟩, ih.2⟩
    · exact ⟨⟨List.cons_ne_nil c [], by simpa using isNumeric_iff.1 hc⟩, ih⟩

theorem isChain_pieces (t : Text) : (pieces t).IsChain Piece.Apart := by
  induction t with
  | nil => exact .nil
  | cons c rest ih =>
    rcases pieces_cons_cases c rest with
      ⟨-, h⟩ | ⟨-, ⟨digits, more, hrest, h⟩ | ⟨hrest, h⟩⟩ <;> rw [h, List.isChain_cons]
    · exact ⟨fun q _ => Piece.apart_symbol c q, ih⟩
    · rw [hrest, List.isChain_cons] at ih
      exact ⟨fun q hq hboth => ih.1 q hq ⟨⟨digits, rfl⟩, hboth.2⟩, ih.2⟩
    · refine ⟨fun q hq hboth => ?_, ih⟩
      obtain ⟨digits, rfl⟩ := hboth.2
      obtain ⟨more, hmore⟩ := List.head?_eq_some_iff.1 hq
      exact hrest digits more hmore

/-! ## Where the spans stand -/

/-- A run of digits and points that goes on neither before its beginning nor behind its end. -/
structure IsMaximalRun (before run after : Text) : Prop where
  isNumeral : IsNumeral run
  left : ∀ c, before.getLast? = some c → ¬(c.isDigit ∨ c = '.')
  right : ∀ c, after.head? = some c → ¬(c.isDigit ∨ c = '.')

/-- The style of a character outside numbers, by what kind of character it is. -/
structure IsStyleOf (base : Style) (c : Char) (style : Style) : Prop where
  operator : c ∈ "+-*/".toList → style = .strong .yellow
  equals : c = '=' → style = .colored .gray
  space : c = ' ' → style = .plain
  other : c ∉ "+-*/= ".toList → style = base

theorem isStyleOf_iff {base style : Style} {c : Char} :
    IsStyleOf base c style ↔ style = symbolStyle base c := by
  constructor
  · intro h
    unfold symbolStyle
    split_ifs with hoperator hequals hspace
    · exact h.operator (by simpa using hoperator)
    · exact h.equals hequals
    · exact h.space hspace
    · have hnone : c ∉ "+-*/= ".toList := by
        simp only [not_or] at hoperator
        simp [hoperator, hequals, hspace]
      exact h.other hnone
  · rintro rfl
    refine ⟨fun hc => ?_, ?_, ?_, fun hc => ?_⟩
    · exact if_pos (by simpa using hc)
    · rintro rfl
      rfl
    · rintro rfl
      rfl
    · have hnone : c ≠ '+' ∧ c ≠ '-' ∧ c ≠ '*' ∧ c ≠ '/' ∧ c ≠ '=' ∧ c ≠ ' ' := by simpa using hc
      simp [symbolStyle, hnone]

/-- The line has the span between the two texts. -/
def StandsBetween (line : Line) (before : Text) (s : Span) (after : Text) : Prop :=
  ∃ l r, line = l ++ s :: r ∧ l.flatMap Span.text = before ∧ r.flatMap Span.text = after

/-- A number among the pieces is a maximal run, since its neighbours are no numbers. -/
theorem isMaximalRun_of_pieces {t digits : Text} {l r : List Piece}
    (h : pieces t = l ++ .number digits :: r) :
    IsMaximalRun (l.flatMap Piece.text) digits (r.flatMap Piece.text) := by
  have hproper : ∀ p ∈ l ++ .number digits :: r, p.IsProper := h ▸ isProper_of_mem_pieces
  have hchain : (l ++ .number digits :: r).IsChain Piece.Apart := h ▸ isChain_pieces t
  rw [List.isChain_append, List.isChain_cons] at hchain
  obtain ⟨-, ⟨hright, -⟩, hleft⟩ := hchain
  have hdigits : (Piece.number digits).IsProper := hproper _ (by simp)
  -- The neighbours of a number are symbols, and a symbol is its own character.
  refine ⟨hdigits, fun c hc => ?_, fun c hc => ?_⟩
  · rcases List.eq_nil_or_concat l with rfl | ⟨l, p, rfl⟩
    · simp at hc
    · have hp : p.IsProper := hproper p (by simp)
      cases p with
      | number run => exact absurd ⟨⟨run, rfl⟩, digits, rfl⟩ (hleft _ (by simp) _ rfl)
      | symbol d =>
        obtain rfl : d = c := by simpa [Piece.text] using hc
        exact hp
  · cases r with
    | nil => simp at hc
    | cons p r =>
      have hp : p.IsProper := hproper p (by simp)
      cases p with
      | number run => exact absurd ⟨⟨digits, rfl⟩, run, rfl⟩ (hright _ rfl)
      | symbol d =>
        obtain rfl : d = c := by simpa [Piece.text] using hc
        exact hp

/-- The piece of a maximal run stands where the run does. -/
theorem pieces_of_isMaximalRun {before run after : Text} (h : IsMaximalRun before run after) :
    pieces (before ++ run ++ after) = pieces before ++ .number run :: pieces after := by
  have hrun := pieces_run h.isNumeral.1 (fun c hc => isNumeric_iff.2 (h.isNumeral.2 c hc))
    fun c hc => isNumeric_eq_false_iff.2 (h.right c hc)
  rw [List.append_assoc,
    pieces_append fun c d hc _ => .inl (isNumeric_eq_false_iff.2 (h.left c hc)), hrun]

theorem pieces_of_symbol {c : Char} (hc : isNumeric c = false) (before after : Text) :
    pieces (before ++ [c] ++ after) = pieces before ++ .symbol c :: pieces after := by
  rw [List.append_assoc, pieces_append, List.singleton_append, pieces_symbol hc]
  intro _ d _ hd
  obtain rfl : c = d := by simpa using hd
  exact .inr hc

theorem standsBetween_highlight_iff {base : Style} {t before after : Text} {s : Span} :
    StandsBetween (highlight base t) before s after ↔
      ∃ l p r, pieces t = l ++ p :: r ∧ p.span base = s ∧ l.flatMap Piece.text = before ∧
        r.flatMap Piece.text = after := by
  constructor
  · rintro ⟨l, r, hline, rfl, rfl⟩
    rw [highlight, List.map_eq_append_iff] at hline
    obtain ⟨l, rest, hpieces, rfl, hrest⟩ := hline
    obtain ⟨p, r, rfl, hp, rfl⟩ := List.map_eq_cons_iff.1 hrest
    exact ⟨l, p, r, hpieces, hp, (text_map_span base l).symm, (text_map_span base r).symm⟩
  · rintro ⟨l, p, r, hpieces, rfl, rfl, rfl⟩
    refine ⟨l.map (Piece.span base), r.map (Piece.span base), ?_, text_map_span base l,
      text_map_span base r⟩
    rw [highlight, hpieces, List.map_append, List.map_cons]

/-- **Highlighting cuts an expression into maximal runs and symbols.** The highlighted line reads as
the expression, no span of it is empty, and no two spans of digits and points are neighbours. A
span stands between two texts exactly if it has, in the style of numbers, a run of digits and points
that is maximal between them, or any other character, alone and in the style of its kind. -/
theorem highlight_runs_and_symbols (base : Style) (t : Text) :
    let line := highlight base t
    line.flatMap Span.text = t ∧
      (∀ s ∈ line, s.text ≠ []) ∧
      (line.IsChain fun s s' => ¬ (IsNumeral s.text ∧ IsNumeral s'.text)) ∧
      ∀ before s after, StandsBetween line before s after ↔
        t = before ++ s.text ++ after ∧
          (IsMaximalRun before s.text after ∧ s.style = .colored .lightGreen ∨
            ∃ c, ¬(c.isDigit ∨ c = '.') ∧ s.text = [c] ∧ IsStyleOf base c s.style) := by
  intro line
  refine ⟨text_highlight base t, ?_, ?_, fun before s after => ?_⟩
  · intro s hs
    obtain ⟨p, hp, rfl⟩ := List.mem_map.1 hs
    rw [Piece.text_span]
    exact (isProper_of_mem_pieces p hp).text_ne_nil
  · rw [show line = (pieces t).map (Piece.span base) from rfl, List.isChain_map]
    simp only [Piece.text_span]
    refine (isChain_pieces t).imp_of_mem_imp fun p q hp hq hpq hboth => hpq ?_
    exact ⟨(isProper_of_mem_pieces p hp).isNumber_iff.2 hboth.1,
      (isProper_of_mem_pieces q hq).isNumber_iff.2 hboth.2⟩
  · -- A span stands where its piece does, and pieces are told by what is around them.
    rw [standsBetween_highlight_iff]
    constructor
    · rintro ⟨l, p, r, hpieces, rfl, rfl, rfl⟩
      have htext := flatMap_pieces t
      rw [hpieces, List.flatMap_append, List.flatMap_cons, ← List.append_assoc] at htext
      refine ⟨by rw [Piece.text_span, htext], ?_⟩
      cases p with
      | number digits => exact .inl ⟨isMaximalRun_of_pieces hpieces, rfl⟩
      | symbol c =>
        have hc : (Piece.symbol c).IsProper :=
          isProper_of_mem_pieces _ (by rw [hpieces]; simp)
        exact .inr ⟨c, hc, rfl, isStyleOf_iff.2 rfl⟩
    · rintro ⟨rfl, ⟨hrun, hstyle⟩ | ⟨c, hc, htext, hstyle⟩⟩
      · refine ⟨_, _, _, pieces_of_isMaximalRun hrun, ?_, flatMap_pieces before,
          flatMap_pieces after⟩
        rw [Piece.span, numberStyle, ← hstyle]
      · rw [htext]
        have hpieces := pieces_of_symbol (isNumeric_eq_false_iff.2 hc) before after
        refine ⟨_, _, _, hpieces, ?_, flatMap_pieces before, flatMap_pieces after⟩
        rw [Piece.span, ← htext, ← isStyleOf_iff.1 hstyle]

end PocketCalc.Panel
