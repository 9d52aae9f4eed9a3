import Wapsell.Dashboard.Csv

/-!
# Blank lines in a catalog

Empty lines behind the header of a catalog change nothing: the splitter comes
to a line end outside quotes, and the lines it answers there are skipped.
Empty lines before the header do change something. The first of them is taken
for the header, and a catalog with a content column is refused.

The comment over the parser speaks of the first non-empty line as the
header, and the code takes `lines[0]`. Behind the header the two agree.

`Spread` puts lines in one place at a time and keeps what stands before
it, because whether an empty line may go somewhere depends on the quote
state that all the text before it leaves.
-/

namespace Wapsell.Dashboard

open Lib

/-! ## Putting lines in -/

/-- `\n` or `\r`; a CRLF is two of them. -/
def isLineEnd (c : Char) : Bool := c = '\n' || c = '\r'

/-- Behind the text a field is in quotes. The number of quotes decides it, since a doubled quote
counts twice and so changes nothing. -/
def quoteOpen (before : List Char) : Bool := before.count '"' % 2 = 1

/-- A line ends right here. -/
def EndsLine (before : List Char) : Prop := ∃ e, before.getLast? = some e ∧ isLineEnd e = true

/-- Where an empty line may be put in behind the header: outside quotes, at a line end or at the end
of the text. Inside quotes it would be a part of a field. -/
structure Gap (before rest : List Char) : Prop where
  started : before ≠ []
  closed : quoteOpen before = false
  between : rest = [] ∨ EndsLine before

/-- Behind `before`, the rest of a text becomes another by line ends put in where a line may be. -/
inductive Spread : List Char → List Char → List Char → Prop
  | done {before : List Char} : Spread before [] []
  | keep {before rest rest' : List Char} (c : Char) :
      Spread (before ++ [c]) rest rest' → Spread before (c :: rest) (c :: rest')
  | blank {before rest rest' : List Char} {e : Char} : isLineEnd e = true → Gap before rest →
      Spread before rest rest' → Spread before rest (e :: rest')

/-- The byte order mark of a text that begins with one. -/
def bomOf (text : List Char) : List Char := if text.head? = some BOM then [BOM] else []

/-- The text with empty lines in it: in front of its mark, between the mark and the header, and
anywhere behind the header. -/
structure Inserted (outside front text text' : List Char) : Prop where
  lineEnds : ∀ e ∈ outside ++ front, isLineEnd e = true
  spread : ∃ body, Spread [] (stripBom text) body ∧
    text' = outside ++ (bomOf text ++ (front ++ body))

/-! ## One character of the splitter -/

theorem isLineEnd_iff (c : Char) : isLineEnd c = true ↔ c = '\n' ∨ c = '\r' := by
  rw [isLineEnd, Bool.or_eq_true, decide_eq_true_eq, decide_eq_true_eq]

theorem isLineEnd_ne_quote {c : Char} (h : isLineEnd c = true) : c ≠ '"' := by
  rcases (isLineEnd_iff c).mp h with rfl | rfl <;> decide

theorem isLineEnd_ne_bom {c : Char} (h : isLineEnd c = true) : c ≠ BOM := by
  rcases (isLineEnd_iff c).mp h with rfl | rfl <;> decide

theorem quoteOpen_concat (before : List Char) (c : Char) : quoteOpen (before ++ [c]) =
    if c = '"' then !quoteOpen before else quoteOpen before := by
  unfold quoteOpen
  rw [List.count_append, List.count_singleton]
  by_cases hc : c = '"'
  · rw [if_pos hc, if_pos (by simpa using hc), ← decide_not, decide_eq_decide]
    omega
  · rw [if_neg hc, if_neg (by simpa using hc), Nat.add_zero]

/-- A quote toggles. A doubled quote is one that toggles twice. -/
theorem splitFrom_quote (q : Bool) (buf rest : List Char) :
    splitFrom q buf ('"' :: rest) = splitFrom (!q) (buf ++ ['"']) rest := by
  cases q with
  | false => rw [splitFrom, if_pos rfl, if_neg (by simp)]
  | true =>
    by_cases hhead : rest.head? = some '"'
    · obtain ⟨rest, rfl⟩ := List.head?_eq_some_iff.mp hhead
      rw [splitFrom, if_pos rfl, if_pos (by simp), Bool.not_true, splitFrom, if_pos rfl,
        if_neg (by simp), List.append_assoc]
      rfl
    · rw [splitFrom, if_pos rfl, if_neg (by simpa using hhead)]

/-- Outside quotes a line end ends the line. -/
theorem splitFrom_break {e : Char} (he : isLineEnd e = true) (buf rest : List Char) :
    splitFrom false buf (e :: rest) = buf :: splitFrom false [] (afterLineEnd e rest) := by
  rw [splitFrom, if_neg (isLineEnd_ne_quote he), if_pos]
  rw [isLineEnd] at he
  rw [he]
  rfl

/-- Any other character is kept, and a line end in quotes is. -/
theorem splitFrom_other {q : Bool} {c : Char} (hc : c ≠ '"') (hq : isLineEnd c = true → q = true)
    (buf rest : List Char) : splitFrom q buf (c :: rest) = splitFrom q (buf ++ [c]) rest := by
  rw [splitFrom, if_neg hc, if_neg]
  intro hbreak
  obtain ⟨he, hopen⟩ := Bool.and_eq_true_iff.mp hbreak
  rw [hq he] at hopen
  cases hopen

/-- A character ends the line, or it is read into it and no line ends behind it. -/
theorem ends_or_reads (before : List Char) (c : Char) :
    (isLineEnd c = true ∧ quoteOpen before = false ∧ quoteOpen (before ++ [c]) = false) ∨
      (EndsLine (before ++ [c]) → quoteOpen (before ++ [c]) = true) ∧
        ∀ buf rest, splitFrom (quoteOpen before) buf (c :: rest) =
          splitFrom (quoteOpen (before ++ [c])) (buf ++ [c]) rest := by
  have hlast : EndsLine (before ++ [c]) → isLineEnd c = true := by
    rintro ⟨e, he, hend⟩
    rw [List.getLast?_concat] at he
    exact Option.some.inj he ▸ hend
  rw [quoteOpen_concat]
  by_cases hquote : c = '"'
  · subst hquote
    rw [if_pos rfl]
    refine .inr ⟨fun hends => ?_, splitFrom_quote _⟩
    exact absurd rfl (isLineEnd_ne_quote (hlast hends))
  · rw [if_neg hquote]
    by_cases hopen : isLineEnd c = true → quoteOpen before = true
    · exact .inr ⟨fun hends => hopen (hlast hends), splitFrom_other hquote hopen⟩
    · obtain ⟨hend, hclosed⟩ := Classical.not_imp.mp hopen
      have hfalse := Bool.eq_false_iff.mpr hclosed
      exact .inl ⟨hend, hfalse, hfalse⟩

/-! ## The lines that are not empty -/

/-- The lines that are not empty. The parser reads no others behind the header. -/
def kept (lines : List (List Char)) : List (List Char) := lines.filter fun line => line ≠ []

theorem kept_cons (line : List Char) (lines : List (List Char)) :
    kept (line :: lines) = kept [line] ++ kept lines := by
  rw [kept, ← List.singleton_append, List.filter_append]
  rfl

/-- What is read at the end of a text. -/
theorem kept_end (q : Bool) (buf : List Char) : kept (splitFrom q buf []) = kept [buf] := by
  rw [splitFrom]
  split
  · next h =>
    rw [h]
    rfl
  · rfl

/-- To take the second character of a CRLF for a line end of its own adds an empty line. -/
theorem kept_break {e : Char} (he : isLineEnd e = true) (buf rest : List Char) :
    kept (splitFrom false buf (e :: rest)) = kept [buf] ++ kept (splitFrom false [] rest) := by
  rw [splitFrom_break he, kept_cons, afterLineEnd]
  split
  · next h =>
    obtain ⟨tail, rfl⟩ := List.head?_eq_some_iff.mp h.2
    have hskip : afterLineEnd '\n' tail = tail := if_neg fun hcr => absurd hcr.1 (by decide)
    have hblank : kept (splitFrom false [] ('\n' :: tail)) = kept (splitFrom false [] tail) := by
      rw [splitFrom_break (by decide), hskip, kept_cons]
      rfl
    rw [List.tail_cons, hblank]
  · rfl

/-! ## Spreading a text -/

namespace Spread

theorem refl : ∀ (before rest : List Char), Spread before rest rest
  | _, [] => .done
  | before, c :: rest => .keep c (refl (before ++ [c]) rest)

theorem append {rest rest' : List Char} : ∀ {before : List Char} (a : List Char),
    Spread (before ++ a) rest rest' → Spread before (a ++ rest) (a ++ rest')
  | before, [], h => by rwa [List.append_nil] at h
  | before, c :: a, h => by
    refine .keep c (append a ?_)
    rwa [List.append_assoc]

/-- At the front of a text nothing is put in. -/
theorem head?_eq {rest rest' : List Char} (h : Spread [] rest rest') : rest'.head? = rest.head? := by
  cases h with
  | done => rfl
  | keep c _ => rfl
  | blank _ hgap _ => exact absurd rfl hgap.started

/-- **The lines.** Those that are not empty are the same. The induction is on the spreading, with
the text read so far in the buffer of the splitter. -/
theorem kept_eq {before rest rest' : List Char} (h : Spread before rest rest') :
    ∀ buf, (EndsLine before → quoteOpen before = false → buf = []) →
      kept (splitFrom (quoteOpen before) buf rest') =
        kept (splitFrom (quoteOpen before) buf rest) := by
  induction h with
  | done => exact fun _ _ => rfl
  | @keep before rest rest' c _ ih =>
    intro buf _
    rcases ends_or_reads before c with ⟨hend, hclosed, hstill⟩ | ⟨hopen, hreads⟩
    · rw [hstill] at ih
      rw [hclosed, kept_break hend, kept_break hend, ih [] fun _ _ => rfl]
    · rw [hreads, hreads]
      apply ih
      intro hends hclosed
      rw [hopen hends] at hclosed
      cases hclosed
  | @blank before rest rest' e hend hgap _ ih =>
    intro buf hbuf
    rw [hgap.closed] at ih ⊢
    rw [kept_break hend, ih [] fun _ _ => rfl]
    rcases hgap.between with rfl | hends
    · rw [kept_end, kept_end]
      exact List.append_nil _
    · rw [hbuf hends hgap.closed]
      rfl

/-- **The header.** The first line is the same.

The header may have line ends inside quotes; nothing is put into it, since its own text is
copied. -/
theorem head?_lines {before rest rest' : List Char} (h : Spread before rest rest') :
    (EndsLine before → quoteOpen before = true) →
      (splitFrom (quoteOpen before) before rest').head? =
        (splitFrom (quoteOpen before) before rest).head? := by
  induction h with
  | done => exact fun _ => rfl
  | @keep before rest rest' c _ ih =>
    intro _
    rcases ends_or_reads before c with ⟨hend, hclosed, -⟩ | ⟨hopen, hreads⟩
    · rw [hclosed, splitFrom_break hend, splitFrom_break hend]
      rfl
    · rw [hreads, hreads]
      exact ih hopen
  | @blank before rest rest' e hend hgap _ _ =>
    intro hfirst
    have hrest : rest = [] := by
      refine hgap.between.resolve_right fun hends => ?_
      have hopen := hfirst hends
      rw [hgap.closed] at hopen
      cases hopen
    rw [hrest, hgap.closed, splitFrom_break hend, splitFrom, if_neg hgap.started]
    rfl

end Spread

/-! ## Reading the lines -/

section Reading

variable {toLowerCase : String → String}

/-- The names in a header. -/
def headerNames (toLowerCase : String → String) (header : List Char) : List String :=
  (parseCsvLine header).map fun h => toLowerCase (trim h)

/-- The first line names no content. Such a text is refused already, so a line before it cannot make
it worse. -/
def LacksContent (toLowerCase : String → String) (text : String) : Prop :=
  ∃ header, (splitLogicalLines (stripBom text.toList)).head? = some header ∧
    "content" ∉ headerNames toLowerCase header

/-- What a catalog without a content column is refused with. -/
def missingContent : CsvParseError :=
  ⟨"El CSV debe tener una columna llamada 'content' con la descripción del producto/política."⟩

/-- An empty line is no row. -/
theorem filterMap_kept (headers : List String) (contentIdx : Nat) (lines : List (List Char)) :
    (kept lines).filterMap (parseRow headers contentIdx) =
      lines.filterMap (parseRow headers contentIdx) := by
  induction lines with
  | nil => rfl
  | cons line lines ih =>
    rw [kept_cons, List.filterMap_append, ih]
    by_cases hline : line = []
    · rw [hline]
      rfl
    · have hkept : kept [line] = [line] := by simp [kept, hline]
      rw [hkept, ← List.filterMap_append, List.singleton_append]

/-- The result depends on the first line and on those that are not empty. -/
theorem parseCatalogCsv_congr {text text' : String}
    (hhead : (splitLogicalLines (stripBom text'.toList)).head? =
      (splitLogicalLines (stripBom text.toList)).head?)
    (hkept : kept (splitLogicalLines (stripBom text'.toList)) =
      kept (splitLogicalLines (stripBom text.toList))) :
    parseCatalogCsv toLowerCase text' = parseCatalogCsv toLowerCase text := by
  unfold parseCatalogCsv
  generalize splitLogicalLines (stripBom text'.toList) = lines' at *
  generalize splitLogicalLines (stripBom text.toList) = lines at *
  cases lines with
  | nil =>
    rw [List.head?_nil, List.head?_eq_none_iff] at hhead
    rw [hhead]
  | cons header lines =>
    obtain ⟨lines', rfl⟩ := List.head?_eq_some_iff.mp hhead
    rw [kept_cons, kept_cons header lines] at hkept
    have htail := List.append_cancel_left hkept
    have hrows : ∀ headers contentIdx, lines'.filterMap (parseRow headers contentIdx) =
        lines.filterMap (parseRow headers contentIdx) := by
      intro headers contentIdx
      rw [← filterMap_kept, htail, filterMap_kept]
    simp only [hrows]

/-- A catalog is refused for the missing column exactly when its first line lacks it. -/
theorem parseCatalogCsv_eq_missing_iff {text : String} :
    parseCatalogCsv toLowerCase text = .error missingContent ↔ LacksContent toLowerCase text := by
  unfold parseCatalogCsv LacksContent
  cases splitLogicalLines (stripBom text.toList) with
  | nil => simp [missingContent]
  | cons header lines =>
    have hnames : (parseCsvLine header).map (fun h => toLowerCase (trim h)) =
        headerNames toLowerCase header := rfl
    simp only [List.head?_cons, Option.some.injEq, exists_eq_left', hnames]
    cases hidx : (headerNames toLowerCase header).idxOf? "content" with
    | none => exact iff_of_true rfl (List.idxOf?_eq_none_iff.mp hidx)
    | some contentIdx =>
      have hmem : "content" ∈ headerNames toLowerCase header :=
        List.isSome_idxOf?.mp (by rw [hidx]; rfl)
      refine iff_of_false ?_ fun hnot => hnot hmem
      dsimp only
      split
      · simp [missingContent]
      · simp

/-- An empty line in front is the header. -/
theorem lacksContent_of_blank (hempty : toLowerCase "" = "") {text : String} {e : Char}
    {rest : List Char} (he : isLineEnd e = true) (h : stripBom text.toList = e :: rest) :
    LacksContent toLowerCase text := by
  refine ⟨[], ?_, ?_⟩
  · rw [h, splitLogicalLines, splitFrom_break he]
    rfl
  · have hnames : headerNames toLowerCase [] = [toLowerCase ""] := by
      rw [headerNames, parseCsvLine, parseFrom]
      rfl
    rw [hnames, hempty]
    decide

end Reading

/-! ## The text with empty lines in it -/

/-- The mark is taken off what is put behind it. -/
theorem stripBom_bomOf_append {text body : List Char}
    (h : body.head? = some BOM → text.head? = some BOM) : stripBom (bomOf text ++ body) = body := by
  unfold bomOf
  split
  · exact if_pos rfl
  · next hnone => exact if_neg fun hbody => hnone (h hbody)

theorem stripBom_lineEnd {e : Char} (he : isLineEnd e = true) (rest : List Char) :
    stripBom (e :: rest) = e :: rest :=
  if_neg fun hhead => isLineEnd_ne_bom he (Option.some.inj hhead)

namespace Inserted

variable {outside front text text' : List Char}

/-- Without lines before the header the text is spread. -/
theorem spread_of_nil (h : Inserted outside front text text') (hnone : outside = [] ∧ front = []) :
    Spread [] (stripBom text) (stripBom text') := by
  obtain ⟨body, hspread, rfl⟩ := h.spread
  obtain ⟨rfl, rfl⟩ := hnone
  have hhead : body.head? = some BOM → text.head? = some BOM := by
    intro hbody
    rw [hspread.head?_eq, stripBom] at hbody
    split at hbody
    · assumption
    · exact hbody
  rwa [List.nil_append, List.nil_append, stripBom_bomOf_append hhead]

/-- With one the text begins with a line end. -/
theorem head_of_ne_nil (h : Inserted outside front text text')
    (hsome : ¬ (outside = [] ∧ front = [])) :
    ∃ e rest, isLineEnd e = true ∧ stripBom text' = e :: rest := by
  obtain ⟨body, -, rfl⟩ := h.spread
  cases outside with
  | cons e outside =>
    have he := h.lineEnds e List.mem_cons_self
    exact ⟨e, _, he, stripBom_lineEnd he _⟩
  | nil =>
    cases front with
    | nil => exact absurd ⟨rfl, rfl⟩ hsome
    | cons e front =>
      have he := h.lineEnds e List.mem_cons_self
      refine ⟨e, front ++ body, he, stripBom_bomOf_append fun hhead => ?_⟩
      exact absurd (Option.some.inj hhead) (isLineEnd_ne_bom he)

end Inserted

/-- **Blank lines.** Empty lines change nothing exactly when none is put before the header, or when
the first line was no header with content before.

The splitter drops only an empty last line, so the other empty lines reach the loop over the rows,
which skips them. The one in front of the header reaches `lines[0]` instead. -/
theorem parse_inserted {toLowerCase : String → String} (hempty : toLowerCase "" = "")
    {outside front : List Char} {text text' : String}
    (h : Inserted outside front text.toList text'.toList) :
    parseCatalogCsv toLowerCase text' = parseCatalogCsv toLowerCase text ↔
      (outside = [] ∧ front = []) ∨ LacksContent toLowerCase text := by
  by_cases hnone : outside = [] ∧ front = []
  · have hspread := h.spread_of_nil hnone
    have hfirst : ¬ EndsLine [] := by
      rintro ⟨e, he, -⟩
      cases he
    refine iff_of_true (parseCatalogCsv_congr ?_ ?_) (.inl hnone)
    · exact hspread.head?_lines fun hends => absurd hends hfirst
    · exact hspread.kept_eq [] fun _ _ => rfl
  · obtain ⟨e, rest, he, hstrip⟩ := h.head_of_ne_nil hnone
    have hlacks := lacksContent_of_blank hempty he hstrip
    rw [parseCatalogCsv_eq_missing_iff.mpr hlacks]
    constructor
    · intro heq
      exact .inr (parseCatalogCsv_eq_missing_iff.mp heq.symm)
    · rintro (hnil | hlacks)
      · exact absurd hnil hnone
      · exact (parseCatalogCsv_eq_missing_iff.mpr hlacks).symm

/-- `toLowerCase` on ASCII. -/
def lowerAscii (s : String) : String := String.ofList (s.toList.map Char.toLower)

/-- An empty line behind the header does not matter. -/
theorem parse_inserted_shoes :
    parseCatalogCsv lowerAscii "content\n\nzapatos" = parseCatalogCsv lowerAscii "content\nzapatos" := by
  have hgap : Gap "content\n".toList "zapatos".toList :=
    ⟨by decide, by decide, .inr ⟨'\n', by decide, by decide⟩⟩
  refine (parse_inserted rfl ⟨List.forall_mem_nil _, "content\n\nzapatos".toList, ?_, by decide⟩).mpr
    (.inl ⟨rfl, rfl⟩)
  exact Spread.append "content\n".toList (.blank (e := '\n') (by decide) hgap (Spread.refl _ _))

/-- An empty line before the header: the catalog is refused, and without the line it is read. -/
theorem leading_blank_line :
    Inserted [] ['\n'] "content\nzapatos".toList "\ncontent\nzapatos".toList ∧
      parseCatalogCsv lowerAscii "\ncontent\nzapatos" = .error missingContent ∧
        parseCatalogCsv lowerAscii "content\nzapatos" ≠ .error missingContent := by
  have hend : isLineEnd '\n' = true := by decide
  refine ⟨⟨?_, "content\nzapatos".toList, Spread.refl _ _, by decide⟩, ?_, ?_⟩
  · exact List.forall_mem_singleton.mpr hend
  · have hstrip : stripBom "\ncontent\nzapatos".toList = '\n' :: "content\nzapatos".toList :=
      stripBom_lineEnd hend _
    exact parseCatalogCsv_eq_missing_iff.mpr (lacksContent_of_blank rfl hend hstrip)
  · rw [ne_eq, parseCatalogCsv_eq_missing_iff]
    rintro ⟨header, hhead, hlacks⟩
    have hlines : splitLogicalLines (stripBom "content\nzapatos".toList) =
        ["content".toList, "zapatos".toList] := by
      simp [stripBom, BOM, splitLogicalLines, splitFrom, afterLineEnd]
    rw [hlines] at hhead
    cases hhead
    refine hlacks ?_
    simp [headerNames, parseCsvLine, parseFrom]
    decide

end Wapsell.Dashboard
