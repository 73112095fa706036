/-
The one regular expression of `scripts/prepare.py`,
`#(?P<indent>\s*)include "(?P<header>.*?)"`, and the substitution `re.sub`
makes with it: the matches are found from left to right, do not overlap, and
what lies between them is kept.
-/
import Mathlib.Data.List.TakeWhile

set_option autoImplicit false

namespace UvMbt.Prepare

abbrev Text := List Char

/-- The quotation mark. -/
def quote : Char := Char.ofNat 34

/-- `include "`, with the quotation mark. -/
def keyword : Text := ['i', 'n', 'c', 'l', 'u', 'd', 'e', ' ', quote]

/-- What `\s` matches in a Python `str`. -/
def isSpace (c : Char) : Bool :=
  let code := c.toNat
  (9 ≤ code && code ≤ 13) || (28 ≤ code && code ≤ 32) || code = 0x85 ||
    code = 0xa0 || code = 0x1680 || (0x2000 ≤ code && code ≤ 0x200a) ||
    code = 0x2028 || code = 0x2029 || code = 0x202f || code = 0x205f ||
    code = 0x3000

/-- `(?P<header>.*?)"`: up to the first quotation mark of the line. -/
def quoted : Text → Option (Text × Text)
  | [] => none
  | c :: rest =>
      if c = quote then some ([], rest)
      else if c = '\n' then none
      else (quoted rest).map fun found => (c :: found.1, found.2)

/-- A match of the whole pattern at the head of a text: the indent, the header
and the text behind the match.  `\s*` is greedy, and giving a blank back never
helps because no blank starts `include`. -/
def matchInclude : Text → Option (Text × Text × Text)
  | [] => none
  | c :: text =>
      if c = '#' then do
        let text' ← keyword.isPrefixOf? (text.dropWhile isSpace)
        let (header, rest) ← quoted text'
        some (text.takeWhile isSpace, header, rest)
      else none

/-- What the scan cuts a text into. -/
inductive Piece where
  | char (c : Char)
  | directive (indent header : Text)
deriving DecidableEq

def Piece.render : Piece → Text
  | .char c => [c]
  | .directive indent header =>
      '#' :: (indent ++ (keyword ++ (header ++ [quote])))

def render (pieces : List Piece) : Text := pieces.flatMap Piece.render

/-- The scan, with one unit of fuel for each character. -/
def scanFrom : Nat → Text → List Piece
  | 0, _ => []
  | _ + 1, [] => []
  | fuel + 1, c :: text =>
      match matchInclude (c :: text) with
      | none => .char c :: scanFrom fuel text
      | some (indent, header, rest) =>
          .directive indent header :: scanFrom fuel rest

def scan (text : Text) : List Piece := scanFrom text.length text

/-- The same pieces with every header changed. -/
def Piece.mapHeader (change : Text → Text) : Piece → Piece
  | .char c => .char c
  | .directive indent header => .directive indent (change header)

/-- `re.sub` with a replacement that keeps the indent and changes the header. -/
def substitute (change : Text → Text) (text : Text) : Text :=
  render ((scan text).map (Piece.mapHeader change))

/-- A header that the pattern can find again: it stays on its line and holds
no quotation mark. -/
def Clean (header : Text) : Prop := quote ∉ header ∧ '\n' ∉ header

instance (header : Text) : Decidable (Clean header) :=
  inferInstanceAs (Decidable (quote ∉ header ∧ '\n' ∉ header))

theorem hash_not_space : isSpace '#' = false := by decide

theorem hash_not_mem_keyword : '#' ∉ keyword := by decide

theorem quote_mem_keyword : quote ∈ keyword := by decide

section Match

variable {text header rest indent : Text}

theorem quoted_append (hclean : Clean header) (rest : Text) :
    quoted (header ++ quote :: rest) = some (header, rest) := by
  obtain ⟨hquote, hnewline⟩ := hclean
  induction header with
  | nil => simp [quoted]
  | cons c header ih =>
      simp only [List.mem_cons, not_or] at hquote hnewline
      rw [List.cons_append, quoted, if_neg (Ne.symm hquote.1),
        if_neg (Ne.symm hnewline.1), ih hquote.2 hnewline.2]
      rfl

theorem quoted_sound (hquoted : quoted text = some (header, rest)) :
    text = header ++ quote :: rest ∧ Clean header := by
  induction text generalizing header with
  | nil => simp [quoted] at hquoted
  | cons c text ih =>
      rw [quoted] at hquoted
      by_cases hquote : c = quote
      · rw [if_pos hquote, Option.some.injEq, Prod.mk.injEq] at hquoted
        obtain ⟨rfl, rfl⟩ := hquoted
        exact ⟨by rw [hquote]; rfl, List.not_mem_nil, List.not_mem_nil⟩
      · rw [if_neg hquote] at hquoted
        by_cases hnewline : c = '\n'
        · rw [if_pos hnewline] at hquoted
          cases hquoted
        · rw [if_neg hnewline, Option.map_eq_some_iff] at hquoted
          obtain ⟨⟨found, rest'⟩, hfound, heq⟩ := hquoted
          rw [Prod.mk.injEq] at heq
          obtain ⟨rfl, rfl⟩ := heq
          obtain ⟨rfl, hclean⟩ := ih hfound
          refine ⟨rfl, ?_, ?_⟩
          · rw [List.mem_cons, not_or]
            exact ⟨Ne.symm hquote, hclean.1⟩
          · rw [List.mem_cons, not_or]
            exact ⟨Ne.symm hnewline, hclean.2⟩

/-- Whether a header ends is decided by the text up to its first quotation
mark. -/
theorem quoted_append_of_mem (hquote : quote ∈ text) (after : Text) :
    quoted (text ++ after) =
      (quoted text).map fun found => (found.1, found.2 ++ after) := by
  induction text with
  | nil => cases hquote
  | cons c text ih =>
      rw [List.cons_append, quoted, quoted]
      by_cases hc : c = quote
      · rw [if_pos hc, if_pos hc]
        rfl
      · rw [if_neg hc, if_neg hc]
        by_cases hnewline : c = '\n'
        · rw [if_pos hnewline, if_pos hnewline]
          rfl
        · rw [if_neg hnewline, if_neg hnewline]
          have htail : quote ∈ text := by
            rcases List.mem_cons.mp hquote with heq | htail
            · exact absurd heq.symm hc
            · exact htail
          rw [ih htail, Option.map_map, Option.map_map]
          rfl

theorem isPrefixOf?_eq_some_iff {first second after : Text} :
    first.isPrefixOf? second = some after ↔ second = first ++ after := by
  induction first generalizing second with
  | nil =>
      change some second = some after ↔ second = after
      exact Option.some.injEq second after ▸ Iff.rfl
  | cons c first ih =>
      cases second with
      | nil =>
          constructor
          · intro hprefix
            cases hprefix
          · intro hsecond
            cases hsecond
      | cons d second =>
          change (if c == d then first.isPrefixOf? second else none) = some after ↔
            d :: second = c :: (first ++ after)
          rw [List.cons.injEq]
          by_cases hcd : c = d
          · rw [if_pos (beq_iff_eq.mpr hcd), ih]
            exact (and_iff_right hcd.symm).symm
          · rw [if_neg (fun heq => hcd (beq_iff_eq.mp heq))]
            constructor
            · intro hnone
              cases hnone
            · rintro ⟨heq, -⟩
              exact absurd heq.symm hcd

theorem dropWhile_hash (before after : Text) :
    (before ++ '#' :: after).dropWhile isSpace =
      before.dropWhile isSpace ++ '#' :: after := by
  induction before with
  | nil => rw [List.nil_append, List.dropWhile_cons, hash_not_space]; rfl
  | cons c before ih =>
      rw [List.cons_append, List.dropWhile_cons, List.dropWhile_cons]
      by_cases hc : isSpace c
      · rw [if_pos hc, if_pos hc, ih]
      · rw [if_neg hc, if_neg hc]
        rfl

theorem matchInclude_render (hindent : ∀ c ∈ indent, isSpace c)
    (hclean : Clean header) (rest : Text) :
    matchInclude ((Piece.directive indent header).render ++ rest) =
      some (indent, header, rest) := by
  have hdrop : (indent ++ (keyword ++ (header ++ quote :: rest))).dropWhile
      isSpace = keyword ++ (header ++ quote :: rest) := by
    rw [List.dropWhile_append_of_pos hindent]
    rfl
  have htake : (indent ++ (keyword ++ (header ++ quote :: rest))).takeWhile
      isSpace = indent := by
    rw [List.takeWhile_append_of_pos hindent]
    simp [keyword, isSpace]
  simp only [Piece.render, List.cons_append, List.append_assoc,
    List.nil_append, matchInclude, if_true]
  rw [hdrop, htake, isPrefixOf?_eq_some_iff.mpr rfl]
  simp only [Option.bind_eq_bind, Option.bind_some,
    quoted_append hclean rest]

theorem matchInclude_sound
    (hmatch : matchInclude text = some (indent, header, rest)) :
    text = (Piece.directive indent header).render ++ rest ∧
      (∀ c ∈ indent, isSpace c) ∧ Clean header := by
  cases text with
  | nil => simp [matchInclude] at hmatch
  | cons c text =>
      rw [matchInclude] at hmatch
      by_cases hhash : c = '#'
      · rw [if_pos hhash] at hmatch
        simp only [Option.bind_eq_bind, Option.bind_eq_some_iff,
          Option.some.injEq, Prod.mk.injEq] at hmatch
        obtain ⟨text', hkeyword, ⟨header', rest'⟩, hquoted, rfl, rfl, rfl⟩ :=
          hmatch
        obtain ⟨rfl, hclean⟩ := quoted_sound hquoted
        have hspaces := List.takeWhile_append_dropWhile (p := isSpace)
          (l := text)
        rw [isPrefixOf?_eq_some_iff.mp hkeyword] at hspaces
        refine ⟨?_, fun c hc => List.mem_takeWhile_imp hc, hclean⟩
        simp only [Piece.render, List.cons_append, List.append_assoc,
          List.nil_append]
        rw [hhash, hspaces]
      · rw [if_neg hhash] at hmatch
        cases hmatch

end Match

section Scan

variable {text rest : Text}

theorem scanFrom_fuel {fuel fuel' : Nat} (hfuel : text.length ≤ fuel)
    (hfuel' : text.length ≤ fuel') : scanFrom fuel text = scanFrom fuel' text := by
  induction fuel generalizing text fuel' with
  | zero =>
      rw [List.eq_nil_of_length_eq_zero (Nat.le_zero.mp hfuel)]
      cases fuel' <;> rfl
  | succ fuel ih =>
      cases text with
      | nil => cases fuel' <;> rfl
      | cons c text =>
          cases fuel' with
          | zero => cases hfuel'
          | succ fuel' =>
              simp only [List.length_cons, Nat.succ_le_succ_iff] at hfuel hfuel'
              simp only [scanFrom]
              cases hmatch : matchInclude (c :: text) with
              | none => exact congrArg _ (ih hfuel hfuel')
              | some found =>
                  obtain ⟨indent, header, rest⟩ := found
                  have hlength := congrArg List.length
                    (matchInclude_sound hmatch).1
                  simp only [Piece.render, List.cons_append, List.length_cons,
                    List.length_append] at hlength
                  exact congrArg _ (ih (by omega) (by omega))

theorem scan_char {c : Char} (hmatch : matchInclude (c :: text) = none) :
    scan (c :: text) = .char c :: scan text := by
  simp only [scan, List.length_cons, scanFrom, hmatch]

theorem scan_directive {indent header : Text}
    (hmatch : matchInclude text = some (indent, header, rest)) :
    scan text = .directive indent header :: scan rest := by
  cases text with
  | nil => simp [matchInclude] at hmatch
  | cons c text =>
      have hlength := congrArg List.length (matchInclude_sound hmatch).1
      simp only [Piece.render, List.cons_append, List.length_cons,
        List.length_append] at hlength
      simp only [scan, List.length_cons, scanFrom, hmatch]
      exact congrArg _ (scanFrom_fuel (by omega) (Nat.le_refl _))

/-- Induction along the scan of a text. -/
theorem scan_induction {motive : Text → Prop} (nil : motive [])
    (char : ∀ (c : Char) (text : Text), matchInclude (c :: text) = none →
      motive text → motive (c :: text))
    (directive : ∀ (text indent header rest : Text),
      matchInclude text = some (indent, header, rest) → motive rest →
      motive text) (text : Text) : motive text := by
  induction hlength : text.length using Nat.strong_induction_on
    generalizing text with
  | h length ih =>
      cases text with
      | nil => exact nil
      | cons c tail =>
          cases hmatch : matchInclude (c :: tail) with
          | none =>
              apply char c tail hmatch
              apply ih tail.length _ tail rfl
              rw [← hlength]
              exact Nat.lt_succ_self _
          | some found =>
              obtain ⟨indent, header, rest⟩ := found
              apply directive (c :: tail) indent header rest hmatch
              have hshorter := congrArg List.length
                (matchInclude_sound hmatch).1
              rw [hlength] at hshorter
              simp only [Piece.render, List.cons_append, List.length_cons,
                List.length_append] at hshorter
              exact ih rest.length (by omega) rest rfl

theorem render_cons (piece : Piece) (pieces : List Piece) :
    render (piece :: pieces) = piece.render ++ render pieces := rfl

/-- Nothing of a text is lost or moved by cutting it. -/
theorem render_scan (text : Text) : render (scan text) = text := by
  apply scan_induction (motive := fun text => render (scan text) = text)
  · rfl
  · intro c text hmatch ih
    rw [scan_char hmatch, render_cons, ih]
    rfl
  · intro text indent header rest hmatch ih
    rw [scan_directive hmatch, render_cons, ih, (matchInclude_sound hmatch).1]

theorem scan_clean (text : Text) : ∀ piece ∈ scan text,
    ∀ indent header, piece = .directive indent header →
      (∀ c ∈ indent, isSpace c) ∧ Clean header := by
  apply scan_induction (motive := fun text => ∀ piece ∈ scan text,
    ∀ indent header, piece = .directive indent header →
      (∀ c ∈ indent, isSpace c) ∧ Clean header)
  · intro piece hpiece
    cases hpiece
  · intro c text hmatch ih piece hpiece indent header heq
    rw [scan_char hmatch] at hpiece
    rcases List.mem_cons.mp hpiece with rfl | hpiece
    · cases heq
    · exact ih piece hpiece indent header heq
  · intro text indent header rest hmatch ih piece hpiece indent' header' heq
    rw [scan_directive hmatch] at hpiece
    rcases List.mem_cons.mp hpiece with rfl | hpiece
    · cases heq
      exact (matchInclude_sound hmatch).2
    · exact ih piece hpiece indent' header' heq

end Scan

section Rescan

/-- `include "` holds no `#`, so it never reaches over one. -/
theorem keyword_before_hash {before rest after : Text}
    (hkeyword : keyword.isPrefixOf? (before ++ '#' :: rest) = some after) :
    ∃ gap, before = keyword ++ gap ∧ after = gap ++ '#' :: rest := by
  rw [isPrefixOf?_eq_some_iff, List.append_eq_append_iff] at hkeyword
  rcases hkeyword with ⟨gap, hgap, hafter⟩ | hinside
  · cases gap with
    | nil => exact ⟨[], by rw [hgap, List.append_nil, List.append_nil],
        hafter.symm⟩
    | cons d gap =>
        rw [List.cons_append, List.cons.injEq] at hafter
        apply absurd _ hash_not_mem_keyword
        rw [hgap, hafter.1]
        exact List.mem_append_right before List.mem_cons_self
  · exact hinside

/-- Up to the opening quotation mark of the first directive the two texts are
the same, so a sign that starts no match in one starts none in the other. -/
theorem matchInclude_none_of_agree {c : Char} {before indent first second : Text}
    (hnone : matchInclude
      (c :: (before ++ '#' :: (indent ++ (keyword ++ first)))) = none) :
    matchInclude (c :: (before ++ '#' :: (indent ++ (keyword ++ second)))) =
      none := by
  rw [matchInclude] at hnone ⊢
  by_cases hhash : c = '#'
  · rw [if_pos hhash, dropWhile_hash] at hnone ⊢
    cases hkeyword : keyword.isPrefixOf? (before.dropWhile isSpace ++
        '#' :: (indent ++ (keyword ++ second))) with
    | none => rfl
    | some after =>
        obtain ⟨gap, hgap, rfl⟩ := keyword_before_hash hkeyword
        have hmem : quote ∈ gap ++ '#' :: (indent ++ keyword) := by
          apply List.mem_append_right
          apply List.mem_cons_of_mem
          exact List.mem_append_right indent quote_mem_keyword
        have hsplit : ∀ rest : Text,
            gap ++ '#' :: (indent ++ (keyword ++ rest)) =
              (gap ++ '#' :: (indent ++ keyword)) ++ rest := by
          intro rest
          simp only [List.append_assoc, List.cons_append]
        rw [hgap, List.append_assoc, isPrefixOf?_eq_some_iff.mpr rfl] at hnone
        rw [hsplit] at hnone ⊢
        simp only [Option.bind_eq_bind, Option.bind_some] at hnone ⊢
        rw [quoted_append_of_mem hmem] at hnone ⊢
        cases hquoted : quoted (gap ++ '#' :: (indent ++ keyword)) with
        | none => rfl
        | some found =>
            rw [hquoted] at hnone
            cases hnone
  · rw [if_neg hhash]

/-- Two texts cut into the same pieces, up to the headers, are the same or
agree up to the opening quotation mark of their first directive. -/
theorem render_mapHeader_agree (change : Text → Text) (pieces : List Piece) :
    render (pieces.map (Piece.mapHeader change)) = render pieces ∨
      ∃ before indent first second,
        render pieces = before ++ '#' :: (indent ++ (keyword ++ first)) ∧
        render (pieces.map (Piece.mapHeader change)) =
          before ++ '#' :: (indent ++ (keyword ++ second)) := by
  induction pieces with
  | nil => exact Or.inl rfl
  | cons piece pieces ih =>
      cases piece with
      | char c =>
          rcases ih with heq | ⟨before, indent, first, second, hleft, hright⟩
          · left
            rw [List.map_cons, render_cons, render_cons, heq]
            rfl
          · right
            refine ⟨c :: before, indent, first, second, ?_, ?_⟩
            · rw [render_cons, hleft]
              rfl
            · rw [List.map_cons, render_cons, hright]
              rfl
      | directive indent header =>
          right
          refine ⟨[], indent, header ++ ([quote] ++ render pieces),
            change header ++ ([quote] ++
              render (pieces.map (Piece.mapHeader change))), ?_, ?_⟩
          · rw [render_cons]
            simp only [Piece.render, List.cons_append, List.append_assoc,
              List.nil_append]
          · rw [List.map_cons, render_cons]
            simp only [Piece.mapHeader, Piece.render, List.cons_append,
              List.append_assoc, List.nil_append]

/-- The changed text is cut where the old one was: a substitution neither
hides a directive nor makes a new one. -/
theorem scan_substitute {change : Text → Text}
    (hchange : ∀ header, Clean header → Clean (change header)) (text : Text) :
    scan (substitute change text) =
      (scan text).map (Piece.mapHeader change) := by
  apply scan_induction (motive := fun text =>
    scan (substitute change text) = (scan text).map (Piece.mapHeader change))
  · rfl
  · intro c text hmatch ih
    have hstill : matchInclude (c :: substitute change text) = none := by
      rcases render_mapHeader_agree change (scan text) with
        heq | ⟨before, indent, first, second, hleft, hright⟩
      · rw [substitute, heq, render_scan]
        exact hmatch
      · rw [render_scan] at hleft
        rw [hleft] at hmatch
        rw [substitute, hright]
        exact matchInclude_none_of_agree hmatch
    have hcons : substitute change (c :: text) =
        c :: substitute change text := by
      rw [substitute, scan_char hmatch]
      rfl
    rw [hcons, scan_char hstill, ih, scan_char hmatch]
    rfl
  · intro text indent header rest hmatch ih
    obtain ⟨-, hindent, hclean⟩ := matchInclude_sound hmatch
    have hcons : substitute change text =
        (Piece.directive indent (change header)).render ++
          substitute change rest := by
      rw [substitute, scan_directive hmatch]
      rfl
    rw [hcons, scan_directive
      (matchInclude_render hindent (hchange header hclean) _), ih,
      scan_directive hmatch]
    rfl

end Rescan

section Around

/-- No sign of the text starts a directive, whatever comes behind it: each `#`
is followed by a word that is not `include`. -/
def inert : Text → Bool
  | [] => true
  | c :: text =>
      (c ≠ '#' || (((text.dropWhile isSpace).take 3).length = 3 &&
        (text.dropWhile isSpace).take 3 ≠ ['i', 'n', 'c'])) && inert text

theorem matchInclude_of_ne {c : Char} (hc : c ≠ '#') (text : Text) :
    matchInclude (c :: text) = none := by
  rw [matchInclude, if_neg hc]

theorem matchInclude_eq_none {c : Char} {text : Text}
    (hkeyword : keyword.isPrefixOf? (text.dropWhile isSpace) = none) :
    matchInclude (c :: text) = none := by
  rw [matchInclude, hkeyword]
  exact ite_self none

theorem dropWhile_append_of_ne_nil {text : Text}
    (hne : text.dropWhile isSpace ≠ []) (after : Text) :
    (text ++ after).dropWhile isSpace = text.dropWhile isSpace ++ after := by
  rw [List.dropWhile_append, if_neg]
  rw [List.isEmpty_iff]
  exact hne

theorem inert_of_not_mem {text : Text} (hhash : '#' ∉ text) :
    inert text = true := by
  induction text with
  | nil => rfl
  | cons c text ih =>
      rw [List.mem_cons, not_or] at hhash
      rw [inert, ih hhash.2, decide_eq_true (Ne.symm hhash.1)]
      rfl

theorem scan_inert {before : Text} (hinert : inert before = true)
    (after : Text) : scan (before ++ after) =
      before.map Piece.char ++ scan after := by
  induction before with
  | nil => rfl
  | cons c before ih =>
      rw [inert, Bool.and_eq_true, Bool.or_eq_true, decide_eq_true_eq] at hinert
      have hmatch : matchInclude (c :: (before ++ after)) = none := by
        rcases hinert.1 with hc | hword
        · exact matchInclude_of_ne hc _
        · rw [Bool.and_eq_true, decide_eq_true_eq, decide_eq_true_eq] at hword
          have hne : before.dropWhile isSpace ≠ [] := by
            intro hnil
            rw [hnil] at hword
            exact absurd hword.1 (by decide)
          apply matchInclude_eq_none
          rw [dropWhile_append_of_ne_nil hne]
          cases hkeyword : keyword.isPrefixOf?
              (before.dropWhile isSpace ++ after) with
          | none => rfl
          | some rest =>
              have htake := congrArg (List.take 3)
                (isPrefixOf?_eq_some_iff.mp hkeyword)
              rw [List.take_append_of_le_length] at htake
              · exact absurd htake hword.2
              · rw [← hword.1, List.length_take]
                exact Nat.min_le_right _ _
      rw [List.cons_append, scan_char hmatch, ih hinert.2]
      rfl

/-- A new line ends a header that its line has not ended. -/
theorem quoted_newline {text : Text} (hquoted : quoted text = none)
    (after : Text) : quoted (text ++ '\n' :: after) = none := by
  induction text with
  | nil => rfl
  | cons c text ih =>
      rw [List.cons_append, quoted]
      rw [quoted] at hquoted
      by_cases hc : c = quote
      · rw [if_pos hc] at hquoted
        cases hquoted
      · rw [if_neg hc] at hquoted ⊢
        by_cases hnewline : c = '\n'
        · rw [if_pos hnewline]
        · rw [if_neg hnewline, Option.map_eq_none_iff] at hquoted
          rw [if_neg hnewline, ih hquoted]
          rfl

theorem newline_not_mem_keyword : '\n' ∉ keyword := by decide

/-- A line that starts with `#` does not go on with the directive before it. -/
theorem matchInclude_newline_hash {c : Char} {text : Text}
    (hnone : matchInclude (c :: text) = none) (after : Text) :
    matchInclude (c :: (text ++ '\n' :: '#' :: after)) = none := by
  by_cases hne : text.dropWhile isSpace = []
  · apply matchInclude_eq_none
    rw [List.dropWhile_append, if_pos (List.isEmpty_iff.mpr hne)]
    rfl
  · rw [matchInclude] at hnone ⊢
    by_cases hhash : c = '#'
    · rw [if_pos hhash] at hnone ⊢
      rw [dropWhile_append_of_ne_nil hne]
      cases hkeyword : keyword.isPrefixOf?
          (text.dropWhile isSpace ++ '\n' :: '#' :: after) with
      | none => rfl
      | some rest =>
          rw [isPrefixOf?_eq_some_iff, List.append_eq_append_iff] at hkeyword
          rcases hkeyword with ⟨gap, hgap, hrest⟩ | ⟨gap, hgap, rfl⟩
          · cases gap with
            | nil =>
                rw [List.nil_append] at hrest
                rw [← hrest]
                rfl
            | cons d gap =>
                rw [List.cons_append, List.cons.injEq] at hrest
                apply absurd _ newline_not_mem_keyword
                rw [hgap, hrest.1]
                exact List.mem_append_right _ List.mem_cons_self
          · rw [hgap, isPrefixOf?_eq_some_iff.mpr rfl] at hnone
            simp only [Option.bind_eq_bind, Option.bind_some] at hnone ⊢
            cases hquoted : quoted gap with
            | none =>
                rw [quoted_newline hquoted]
                rfl
            | some found =>
                rw [hquoted] at hnone
                cases hnone
    · rw [if_neg hhash]

/-- A line that starts with `#` can be put behind a text without changing how
the text is cut. -/
theorem scan_newline_hash (text after : Text) :
    scan (text ++ '\n' :: '#' :: after) =
      scan text ++ scan ('\n' :: '#' :: after) := by
  apply scan_induction (motive := fun text =>
    scan (text ++ '\n' :: '#' :: after) =
      scan text ++ scan ('\n' :: '#' :: after))
  · rfl
  · intro c text hmatch ih
    rw [List.cons_append, scan_char (matchInclude_newline_hash hmatch after),
      ih, scan_char hmatch]
    rfl
  · intro text indent header rest hmatch ih
    obtain ⟨htext, hindent, hclean⟩ := matchInclude_sound hmatch
    have hmore : matchInclude (text ++ '\n' :: '#' :: after) =
        some (indent, header, rest ++ '\n' :: '#' :: after) := by
      rw [htext, List.append_assoc]
      exact matchInclude_render hindent hclean _
    rw [scan_directive hmore, ih, scan_directive hmatch]
    rfl

end Around

end UvMbt.Prepare
