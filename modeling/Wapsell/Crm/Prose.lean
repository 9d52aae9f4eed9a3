import Wapsell.Crm.Reply
import Wapsell.Py.JsonRoundTrip

/-!
# An object in the model's prose

The model may put words around its JSON. The reply is then no JSON, and the
parser reads the span from the first opening brace to the last closing one,
which is the object wherever the words have no brace. What it keeps of the
payload are the texts that say something, trimmed, in the order in which
they come.

The words must have no brace, since the span is found by the first and
the last one; a brace in the words moves the span, and the object can be
lost. The object itself may hold braces inside its strings, which is why
the span ends at the last closing brace and not at the first.

What this does not establish: that the model answers an object, or that
the values in it are right. A reply without one gives an empty result.
-/

namespace Wapsell.Crm

open Lib Py

/-! ## The span between the braces -/

/-- A text that `json.dumps` may have written for an object: from brace to brace, and read back by
`json.loads` as the fields. -/
structure Dumped (text : String) (fields : List (String × Json)) : Prop where
  braced : ∃ inner, text.toList = '\x7b' :: (inner ++ ['\x7d'])
  read : loads text = some (.obj fields)

theorem toList_dumps_obj (fields : List (String × Json)) :
    ∃ inner, (Json.obj fields).dumps.toList = '\x7b' :: (inner ++ ['\x7d']) := by
  rw [Json.dumps]
  refine ⟨(join ", " (Json.dumpFields fields)).toList, ?_⟩
  simp

/-- What `dumps` writes is read back. -/
theorem dumped_dumps {fields : List (String × Json)} (h : (Json.obj fields).wellFormed = true) :
    Dumped (Json.obj fields).dumps fields :=
  ⟨toList_dumps_obj fields, loads_dumps h⟩

/-- Neither kind of brace. -/
def NoBrace (s : String) : Prop := '\x7b' ∉ s.toList ∧ '\x7d' ∉ s.toList

theorem NoBrace.of_subset {s : String} {l : List Char} (h : NoBrace s) (hl : l ⊆ s.toList) :
    NoBrace (String.ofList l) := by
  rw [NoBrace, String.toList_ofList]
  exact ⟨fun hmem => h.1 (hl hmem), fun hmem => h.2 (hl hmem)⟩

/-- The span is found whatever stands around it. -/
theorem jsonObjectSpan_around {front back : String} {inner : List Char} (hfront : NoBrace front)
    (hback : NoBrace back) :
    jsonObjectSpan (String.ofList (front.toList ++ '\x7b' :: (inner ++ '\x7d' :: back.toList))) =
      some (String.ofList ('\x7b' :: (inner ++ ['\x7d']))) := by
  have hreverse : ('\x7b' :: (inner ++ '\x7d' :: back.toList)).reverse =
      back.toList.reverse ++ '\x7d' :: ('\x7b' :: inner).reverse := by simp
  have hspan : ('\x7d' :: ('\x7b' :: inner).reverse).reverse = '\x7b' :: (inner ++ ['\x7d']) := by
    simp
  rw [jsonObjectSpan, String.toList_ofList, dropWhile_sep hfront.1, hreverse,
    dropWhile_sep (fun hmem => hback.2 (List.mem_reverse.mp hmem)), hspan,
    if_neg (List.cons_ne_nil _ _)]

/-- The trimmed reply still has the object in it, with less around it. -/
theorem strip_around {text front back : String} {inner : List Char}
    (htext : text.toList = '\x7b' :: (inner ++ ['\x7d'])) (hfront : NoBrace front)
    (hback : NoBrace back) : ∃ front' back', NoBrace front' ∧ NoBrace back' ∧
      strip (front ++ text ++ back) =
        String.ofList (front'.toList ++ '\x7b' :: (inner ++ '\x7d' :: back'.toList)) := by
  have hwhole : front ++ text ++ back =
      String.ofList (front.toList ++ '\x7b' :: (inner ++ '\x7d' :: back.toList)) :=
    String.toList_inj.mp (by simp [htext])
  refine ⟨String.ofList (front.toList.dropWhile isSpace),
    String.ofList (back.toList.reverse.dropWhile isSpace).reverse, ?_, ?_, ?_⟩
  · exact hfront.of_subset (List.dropWhile_suffix _).subset
  · refine hback.of_subset fun c hc => ?_
    exact List.mem_reverse.mp ((List.dropWhile_suffix _).subset (List.mem_reverse.mp hc))
  · refine String.toList_inj.mp ?_
    rw [hwhole, toList_strip (by decide) (by decide)]
    simp

/-- Where nothing runs into a limit, `json.loads` reads or raises `JSONDecodeError`. -/
theorem loads_of_boundless {I : Interpreter} (hI : ∀ s, I.limit s = none) (s : String) :
    I.loads s = (loads s).elim (.error .decode) .ok := by
  rw [Interpreter.loads, hI s]
  cases loads s <;> rfl

/-- The object is read through the prose. -/
theorem extractJsonObject_around {I : Interpreter} (hI : ∀ s, I.limit s = none)
    {text front back : String} {fields : List (String × Json)} (h : Dumped text fields)
    (hfront : NoBrace front) (hback : NoBrace back)
    (hprose : loads (strip (front ++ text ++ back)) = none) :
    extractJsonObject I (front ++ text ++ back) = .ok fields := by
  obtain ⟨inner, htext⟩ := h.braced
  have hne : front ++ text ++ back ≠ "" := by
    intro hempty
    have hlist := congrArg String.toList hempty
    simp [htext] at hlist
  have hspan : jsonObjectSpan (strip (front ++ text ++ back)) = some text := by
    obtain ⟨front', back', hfront', hback', hstrip⟩ := strip_around htext hfront hback
    rw [hstrip, jsonObjectSpan_around hfront' hback', ← htext, String.ofList_toList]
  rw [extractJsonObject, if_neg hne, loads_of_boundless hI, hprose, Option.elim_none]
  dsimp only
  rw [hspan]
  dsimp only
  rw [loads_of_boundless hI, h.read]
  rfl

/-! ## The texts of a payload -/

/-- The text that a value is. -/
def asText : Json → Option String
  | .str text => some text
  | _ => none

/-- The text of a field, if the value is an object that has one there. -/
def fieldText (key : String) (value : Json) : Option String := asText (value.lookup key .null)

/-- What is left of a text: trimmed, and nothing of a blank one. -/
def kept (texts : List String) : List String := (texts.map strip).filter fun s => s ≠ ""

theorem filledText_map_strip (value : Json) :
    (filledText value).map strip = ((asText value).map strip).filter fun s => s ≠ "" := by
  cases value with
  | str text =>
    rw [filledText, asText, Option.map_some, Option.filter_some]
    by_cases h : strip text = ""
    · simp [h]
    · simp [h]
  | _ => rfl

theorem kept_filterMap {α : Type} {f : α → Option String} {g : α → Option String}
    (h : ∀ a, f a = ((g a).map strip).filter fun s => s ≠ "") (l : List α) :
    l.filterMap f = kept (l.filterMap g) := by
  induction l with
  | nil => rfl
  | cons a l ih =>
    rw [List.filterMap_cons, List.filterMap_cons, h a]
    cases g a with
    | none => exact ih
    | some text =>
      have hcons : kept (text :: l.filterMap g) =
          if strip text ≠ "" then strip text :: kept (l.filterMap g) else kept (l.filterMap g) := by
        rw [kept, List.map_cons, List.filter_cons]
        simp only [decide_eq_true_eq]
        rfl
      rw [Option.map_some, Option.filter_some, hcons, ← ih]
      by_cases hblank : strip text = ""
      · simp [hblank]
      · simp [hblank]

/-- The titles that are kept. -/
theorem titles_eq (entries : List Json) :
    (entries.filterMap parseTask).map ExtractedTask.title =
      kept (entries.filterMap (fieldText "title")) := by
  rw [List.map_filterMap]
  refine kept_filterMap (fun entry => ?_) entries
  rw [parseTask, Option.map_map, fieldText, ← filledText_map_strip]
  rfl

theorem tags_eq (entries : List Json) :
    entries.filterMap parseTag = kept (entries.filterMap asText) :=
  kept_filterMap (fun entry => filledText_map_strip entry) entries

theorem toStage_eq (raw : Json) :
    (parseTransition raw).map StageTransition.toStage =
      ((fieldText "to" raw).map strip).filter fun s => s ≠ "" := by
  rw [parseTransition, Option.map_map, fieldText, ← filledText_map_strip]
  rfl

/-- Trimmed, and not blank. Every text that the parser keeps is. -/
def Trimmed (s : String) : Prop := s ≠ "" ∧ strip s = s

theorem trimmed_of_mem_kept {texts : List String} {s : String} (h : s ∈ kept texts) : Trimmed s := by
  obtain ⟨hmem, hne⟩ := List.mem_filter.mp h
  obtain ⟨text, -, rfl⟩ := List.mem_map.mp hmem
  exact ⟨of_decide_eq_true hne, strip_strip text⟩

/-- What the parser says of a payload: of its tasks, tags and stage the texts that are not blank,
trimmed, in the order of the reply. -/
structure KeepsTexts (payload : List (String × Json)) (result : ExtractionResult) : Prop where
  titles : result.newTasks.map ExtractedTask.title =
    kept (((Json.obj payload).lookup "new_tasks" .null).items.filterMap (fieldText "title"))
  tags : result.newTags = kept (((Json.obj payload).lookup "new_tags" .null).items.filterMap asText)
  toStage : result.stageTransition.map StageTransition.toStage =
    ((fieldText "to" ((Json.obj payload).lookup "stage_transition" .null)).map strip).filter
      fun s => s ≠ ""
  titles_trimmed : ∀ task ∈ result.newTasks, Trimmed task.title
  tags_trimmed : ∀ tag ∈ result.newTags, Trimmed tag
  toStage_trimmed : ∀ transition, result.stageTransition = some transition →
    Trimmed transition.toStage

theorem keepsTexts_resultOf (payload : List (String × Json)) :
    KeepsTexts payload (resultOf payload) where
  titles := titles_eq _
  tags := tags_eq _
  toStage := toStage_eq _
  titles_trimmed task htask := by
    have hmem : task.title ∈ (resultOf payload).newTasks.map ExtractedTask.title :=
      List.mem_map_of_mem htask
    rw [resultOf, titles_eq] at hmem
    exact trimmed_of_mem_kept hmem
  tags_trimmed tag htag := by
    rw [resultOf, tags_eq] at htag
    exact trimmed_of_mem_kept htag
  toStage_trimmed transition h := by
    have hto := toStage_eq ((Json.obj payload).lookup "stage_transition" .null)
    rw [show parseTransition _ = some transition from h, Option.map_some] at hto
    obtain ⟨hmap, hne⟩ := Option.filter_eq_some_iff.mp hto.symm
    obtain ⟨text, -, htext⟩ := Option.map_eq_some_iff.mp hmap
    exact ⟨of_decide_eq_true hne, htext ▸ strip_strip text⟩

/-- **JSON survives the prose.** Where `json.loads` raises nothing but `JSONDecodeError`, an object
is read through any words around it that have no brace and make no JSON of the whole, and of every
reply the texts that say something are kept. -/
theorem replies_read {I : Interpreter} (hI : ∀ s, I.limit s = none) :
    (∀ fields : List (String × Json), (Json.obj fields).wellFormed = true →
      Dumped (Json.obj fields).dumps fields) ∧
    (∀ (fields : List (String × Json)) (text front back : String), Dumped text fields →
      NoBrace front → NoBrace back → loads (strip (front ++ text ++ back)) = none →
        extractJsonObject I (front ++ text ++ back) = .ok fields) ∧
    ∀ text, ∃ payload result, extractJsonObject I text = .ok payload ∧
      parseReply I text = .ok result ∧ KeepsTexts payload result := by
  refine ⟨fun _ => dumped_dumps, fun _ _ _ _ => extractJsonObject_around hI, fun text => ?_⟩
  have hreadable : Readable I text := fun _ => ⟨hI _, fun _ span _ => hI span⟩
  obtain ⟨payload, hpayload⟩ := extractJsonObject_isOk_iff.mpr hreadable
  have hparse : parseReply I text = .ok (if payload.isEmpty then {} else resultOf payload) := by
    rw [parseReply, hpayload]
    rfl
  refine ⟨payload, _, hpayload, hparse, ?_⟩
  cases payload with
  | nil => exact keepsTexts_resultOf []
  | cons field payload => exact keepsTexts_resultOf (field :: payload)

/-- A reply in a sentence. -/
theorem replies_read_sentence :
    extractJsonObject .boundless
      ("Here it is: " ++ (Json.obj [("new_tags", .arr [.str "\x7dvip"])]).dumps ++ " Bye.") =
        .ok [("new_tags", .arr [.str "\x7dvip"])] :=
  (replies_read (I := .boundless) fun _ => rfl).2.1 [("new_tags", .arr [.str "\x7dvip"])] _
    "Here it is: " " Bye." (dumped_dumps (by decide))
    ⟨by decide, by decide⟩ ⟨by decide, by decide⟩ (by decide)

end Wapsell.Crm
