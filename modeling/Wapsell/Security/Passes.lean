import Wapsell.Security.Maskings

/-!
# The passes of `redact`

Each default pattern finds what its masking describes, so `redact` is the
passes of the four maskings, one after the other.

This is the bridge between the regular expressions, as `re` runs them,
and the maskings, in whose terms all further results are stated. Nothing
behind it unfolds a pattern again.

For each pattern there are two steps. What its expression reads is
described without expressions, group by group; then a match of the
pattern is an occurrence of the masking and the other way round, with
the word boundary as the condition on the character in front.
-/

namespace Wapsell.Security

open Lib Py

/-- The last group of every pattern is the value. -/
example : DEFAULT_SECRET_PATTERNS.map Regex.groups = [2, 2, 1, 2] := by decide +kernel

/-! ## What the patterns read -/

theorem reads_many {word p : Char → Bool} {prev : Option Char} {w rest : List Char} :
    Regex.Reads word (many p) prev w rest ↔ ∀ c ∈ w, p c = true := by
  simp [many, Regex.Reads, Regex.admits]

theorem reads_many1 {word p : Char → Bool} {prev : Option Char} {w rest : List Char} :
    Regex.Reads word (many1 p) prev w rest ↔ (∀ c ∈ w, p c = true) ∧ w ≠ [] := by
  simp [many1, Regex.Reads, Regex.admits, Nat.succ_le_iff, List.length_pos_iff]

theorem reads_exactly {word : Char → Bool} {s : String} {prev : Option Char} {w rest : List Char} :
    Regex.Reads word (exactly s) prev w rest ↔ w = s.toList := by
  rw [exactly, Regex.reads_literal]
  simp only [decide_eq_true_eq]
  generalize s.toList = l
  induction l generalizing w with
  | nil => simp
  | cons c l ih => cases w <;> simp [ih]

theorem reads_keyEnding {word : Char → Bool} {e : String} (he : e ∈ nameEndings)
    {prev : Option Char} {w rest : List Char} :
    Regex.Reads word (keyEnding e) prev w rest ↔ ∃ c body ending, w = c :: (body ++ ending) ∧
      isLetter c = true ∧ (∀ x ∈ body, isKeyChar x = true) ∧ Spells e ending := by
  have hascii : ∀ c ∈ e.toList, c.toNat < 128 := fun c hc =>
    ((names_spelling e (List.mem_append_right _ he)).1 c hc).1
  simp only [keyEnding, Regex.inOrder, Regex.Reads, reads_many, reads_caseless hascii]
  constructor
  · rintro ⟨_, _, rfl, ⟨c, rfl, hc⟩, body, ending, rfl, hbody, hending⟩
    exact ⟨c, body, ending, rfl, hc, hbody, hending⟩
  · rintro ⟨c, body, ending, rfl, hc, hbody, hending⟩
    exact ⟨[c], body ++ ending, rfl, ⟨c, rfl, hc⟩, body, ending, rfl, hbody, hending⟩

/-- The key group of the assignments reads the names of the default families. -/
theorem reads_secretName {word : Char → Bool} {prev : Option Char} {w rest : List Char} :
    Regex.Reads word (.oneOf (listedNames.map caseless ++ nameEndings.map keyEnding)) prev w rest ↔
      IsSecretName w := by
  have hlisted : ∀ name ∈ listedNames,
      (Regex.Reads word (caseless name) prev w rest ↔ Spells name w) := fun name hname =>
    reads_caseless fun c hc => ((names_spelling name (List.mem_append_left _ hname)).1 c hc).1
  rw [Regex.reads_oneOf]
  constructor
  · rintro ⟨r, hr, hread⟩
    rcases List.mem_append.mp hr with hr | hr
    · obtain ⟨name, hname, rfl⟩ := List.mem_map.mp hr
      exact .inl ⟨name, hname, (hlisted name hname).mp hread⟩
    · obtain ⟨e, he, rfl⟩ := List.mem_map.mp hr
      obtain ⟨c, body, ending, rfl, hc, hbody, hending⟩ := (reads_keyEnding he).mp hread
      exact .inr ⟨c, body, ending, rfl, hc, hbody, e, he, hending⟩
  · rintro (⟨name, hname, hspell⟩ | ⟨c, body, ending, rfl, hc, hbody, e, he, hending⟩)
    · exact ⟨_, List.mem_append_left _ (List.mem_map_of_mem hname), (hlisted name hname).mpr hspell⟩
    · exact ⟨_, List.mem_append_right _ (List.mem_map_of_mem he),
        (reads_keyEnding he).mpr ⟨c, body, ending, rfl, hc, hbody, hending⟩⟩

/-- The sign of an assignment, with the quote before the value. -/
theorem reads_sign {word : Char → Bool} {prev : Option Char} {w rest : List Char} :
    Regex.Reads word (.inOrder [many isSpace, .one fun c => c = ':' || c = '=', many isSpace,
      .rep 0 (some 1) fun c => c = '\'' || c = '"']) prev w rest ↔ IsSign w := by
  have hquote : ∀ q : List Char, ((∀ c ∈ q, (decide (c = '\'') || decide (c = '"')) = true) ∧
      q.length ≤ 1) ↔ (q = [] ∨ q = ['\''] ∨ q = ['"']) := by
    intro q
    match q with
    | [] => simp
    | [c] => simp
    | c :: d :: q => simp
  simp only [Regex.inOrder, Regex.Reads, reads_many, IsSign, Blank, Regex.admits, Bool.or_eq_true,
    decide_eq_true_eq, Nat.zero_le, decide_true, Option.all_some, Bool.true_and]
  simp only [Bool.or_eq_true, decide_eq_true_eq] at hquote
  constructor
  · rintro ⟨s₁, _, rfl, h₁, _, _, rfl, ⟨c, rfl, hc⟩, s₂, q, rfl, h₂, hq⟩
    exact ⟨s₁, c, s₂, q, rfl, h₁, hc, h₂, (hquote q).mp hq⟩
  · rintro ⟨s₁, c, s₂, q, rfl, h₁, hc, h₂, hq⟩
    exact ⟨s₁, _, rfl, h₁, [c], s₂ ++ q, rfl, ⟨c, rfl, hc⟩, s₂, q, rfl, h₂, (hquote q).mpr hq⟩

/-- The literals of the headers are ASCII. -/
theorem headers_ascii : ∀ s ∈ ["Authorization", ":", "Bearer", "Basic", "X-Hub-Signature-256",
    "sha256="], ∀ c ∈ s.toList, c.toNat < 128 := by
  decide

theorem spells_colon {w : List Char} : Spells ":" w ↔ w = [':'] := by
  constructor
  · intro h
    obtain ⟨c, w', rfl, hc⟩ := h.head rfl
    have htail : w' = [] := by simpa using h.length
    rw [htail, (caseFold_eq_iff (d := ':') rfl).mp hc]
  · rintro rfl
    show [':'].map caseFold = ":".toList.map Char.toLower
    decide

/-- The first group of the authorization headers. -/
theorem reads_authorization {word : Char → Bool} {prev : Option Char} {w rest : List Char} :
    Regex.Reads word (.inOrder [caseless "Authorization", many isSpace, caseless ":", many isSpace,
      .oneOf [caseless "Bearer", caseless "Basic"], many1 isSpace]) prev w rest ↔
        IsAuthorization w := by
  have hspell : ∀ s ∈ ["Authorization", ":", "Bearer", "Basic", "X-Hub-Signature-256", "sha256="],
      ∀ prev w rest, (Regex.Reads word (caseless s) prev w rest ↔ Spells s w) := fun s hs _ _ _ =>
    reads_caseless (headers_ascii s hs)
  have hscheme : ∀ prev w rest, (Regex.Reads word (.oneOf [caseless "Bearer", caseless "Basic"])
      prev w rest ↔ Spells "Bearer" w ∨ Spells "Basic" w) := by
    intro prev w rest
    rw [← hspell "Bearer" (by simp) prev w rest, ← hspell "Basic" (by simp) prev w rest]
    exact Iff.rfl
  constructor
  · rintro ⟨w₁, _, rfl, h₁, s₁, _, rfl, hs₁, c, _, rfl, hc, s₂, _, rfl, hs₂, w₂, s₃, rfl, h₂, hs₃⟩
    rw [hspell _ (by simp)] at h₁ hc
    rw [spells_colon.mp hc]
    obtain ⟨hblank, hne⟩ := reads_many1.mp hs₃
    exact ⟨w₁, s₁, s₂, w₂, s₃, by simp, h₁, reads_many.mp hs₁, reads_many.mp hs₂,
      (hscheme _ _ _).mp h₂, hblank, hne⟩
  · rintro ⟨w₁, s₁, s₂, w₂, s₃, rfl, h₁, hs₁, hs₂, h₂, hs₃, hne⟩
    exact ⟨w₁, s₁ ++ ([':'] ++ (s₂ ++ (w₂ ++ s₃))), by simp,
      (hspell "Authorization" (by simp) _ _ _).mpr h₁, s₁, _, rfl, reads_many.mpr hs₁, [':'], _, rfl,
      (hspell ":" (by simp) _ _ _).mpr (spells_colon.mpr rfl), s₂, _, rfl, reads_many.mpr hs₂,
      w₂, s₃, rfl, (hscheme _ _ _).mpr h₂, reads_many1.mpr ⟨hs₃, hne⟩⟩

/-- The first group of the signature header. -/
theorem reads_signatureName {word : Char → Bool} {prev : Option Char} {w rest : List Char} :
    Regex.Reads word (.inOrder [caseless "X-Hub-Signature-256", many isSpace, caseless ":",
      many isSpace]) prev w rest ↔ IsSignatureName w := by
  have hspell : ∀ s ∈ ["Authorization", ":", "Bearer", "Basic", "X-Hub-Signature-256", "sha256="],
      ∀ prev w rest, (Regex.Reads word (caseless s) prev w rest ↔ Spells s w) := fun s hs _ _ _ =>
    reads_caseless (headers_ascii s hs)
  constructor
  · rintro ⟨h, _, rfl, hh, s₁, _, rfl, hs₁, c, s₂, rfl, hc, hs₂⟩
    rw [hspell _ (by simp)] at hh hc
    rw [spells_colon.mp hc]
    exact ⟨h, s₁, s₂, rfl, hh, reads_many.mp hs₁, reads_many.mp hs₂⟩
  · rintro ⟨h, s₁, s₂, rfl, hh, hs₁, hs₂⟩
    exact ⟨h, s₁ ++ ([':'] ++ s₂), rfl, (hspell "X-Hub-Signature-256" (by simp) _ _ _).mpr hh, s₁,
      _, rfl, reads_many.mpr hs₁, [':'], s₂, rfl, (hspell ":" (by simp) _ _ _).mpr (spells_colon.mpr rfl),
      reads_many.mpr hs₂⟩

/-! ## From matches to maskings -/

section Finds

variable {U : Unicode} {G : Masking Char} {n : Nat}

/-- The replacement of a match whose last group ends it: what is before the group stays. -/
theorem redactMatch_eq {r : Regex} {m : Regex.Match} {key value : List Char} (hr : r.groups = n)
    (hn : n ≠ 0) (htext : m.text = key ++ value)
    (hspan : m.span n = some (m.start + key.length, m.start + key.length + value.length)) :
    redactMatch r m = key ++ marker.text := by
  have hlen : (m.start + key.length : Nat) - (m.start : Int) = key.length := by omega
  have hend : (m.start + key.length + value.length : Nat) - (m.start : Int) =
      (key.length + value.length : Nat) := by omega
  simp only [redactMatch, hr, hn, if_false, hspan, hlen, hend, htext, sliceTo, sliceFrom, sliceIndex,
    marker_text]
  have hnonneg : ∀ k : Nat, ¬ (k : Int) < 0 := by omega
  simp only [hnonneg, if_false, Int.toNat_natCast]
  rw [List.take_left, List.drop_of_length_le (by simp), List.append_nil]

/-- A pattern that reads a masking's keys and values, with the value in the group at its end. -/
theorem finds_of_reads {r : Regex} {l : List Regex} {v : Regex} {p : Char → Bool}
    (hr : r = .inOrder (l ++ [.group n v])) (hn : r.groups = n) (hne : n ≠ 0)
    (hgreedy : Regex.EndsGreedy (isWord U) p v)
    (hreads : ∀ prev key value rest, (∀ c ∈ rest.head?, p c = false) →
      (Regex.Reads (isWord U) (.inOrder l) prev key (value ++ rest) ∧
        Regex.Reads (isWord U) v (key.getLast?.or prev) value rest ↔
          G.opens prev ∧ G.key key ∧ G.Value value rest))
    (hmore : G.more = p) :
    Regex.Finds (isWord U) r (redactMatch r) G marker where
  none cur hm k value rest hl hopens hk hv := by
    subst hr
    obtain ⟨hkey, hvalue⟩ := (hreads _ _ _ _ (hmore ▸ hv.stops)).mpr ⟨hopens, hk, hv⟩
    exact Regex.not_reads_of_matchAt_eq_none hm hl hkey hvalue
  some cur m hm := by
    subst hr
    obtain ⟨key, value, rest, hl, hkey, hvalue, hstop, hstart, htext, hspan⟩ :=
      Regex.matchAt_group hgreedy hm
    obtain ⟨hopens, hk, hv⟩ := (hreads _ _ _ _ hstop).mp ⟨hkey, hvalue⟩
    exact ⟨key, value, rest, hl, hopens, hk, hv,
      redactMatch_eq hn hne htext (by rw [hspan, hstart]), htext⟩

/-- In front of a word character there is a boundary where no word character is before. -/
theorem boundary_iff {word : Char → Bool} {prev : Option Char} {c : Char} {l : List Char}
    (hc : word c = true) : prev.any word ≠ (c :: l).head?.any word ↔ prev.any word = false := by
  simp [hc]

/-- A nonempty run up to where its class ends. -/
theorem value_of_runs (hruns : G.Runs) {value rest : List Char}
    (hstop : ∀ c ∈ rest.head?, G.more c = false) :
    (∀ c ∈ value, G.more c = true) ∧ value ≠ [] ↔ G.Value value rest := by
  constructor
  · rintro ⟨hall, hne⟩
    cases value with
    | nil => exact absurd rfl hne
    | cons c w =>
      exact ⟨[c], w, rfl, (hruns [c]).mpr ⟨c, rfl, hall c List.mem_cons_self⟩,
        fun x hx => hall x (List.mem_cons_of_mem c hx), hstop⟩
  · intro hv
    refine ⟨hv.all hruns, ?_⟩
    obtain ⟨a, w, rfl, ha, -, -⟩ := hv
    obtain ⟨c, rfl, -⟩ := (hruns a).mp ha
    exact List.cons_ne_nil c w

theorem assignment_finds (hU : Alphabet U) : Regex.Finds (isWord U) assignmentPattern
    (redactMatch assignmentPattern) (assignment U) marker := by
  refine finds_of_reads (n := 2) (v := many1 isValueChar) (p := isValueChar)
    (l := [.boundary, .group 1 (.oneOf (listedNames.map caseless ++ nameEndings.map keyEnding)),
      many isSpace, .one fun c => c = ':' || c = '=', many isSpace,
      .rep 0 (some 1) fun c => c = '\'' || c = '"'])
    rfl rfl (by decide) (Regex.endsGreedy_rep 1 isValueChar) (fun prev key value rest hstop => ?_) rfl
  have hvalue : Regex.Reads (isWord U) (many1 isValueChar) (key.getLast?.or prev) value rest ↔
      (assignment U).Value value rest :=
    reads_many1.trans (value_of_runs (G := assignment U) assignment_runs hstop)
  rw [hvalue, ← and_assoc]
  refine and_congr_left fun _ => ?_
  have hopens : ∀ name l : List Char, IsSecretName name →
      (prev.any (isWord U) ≠ (name ++ l).head?.any (isWord U) ↔ (assignment U).opens prev) := by
    intro name l hname
    obtain ⟨c, name', rfl, hc⟩ := hname.head
    exact boundary_iff (isWord_of_isKeyChar hU ((isKeyChar_iff c).mpr (.inl hc)))
  constructor
  · rintro ⟨_, _, rfl, ⟨rfl, hbound⟩, name, h, rfl, hname, hsign⟩
    have hname := reads_secretName.mp hname
    rw [List.append_assoc] at hbound
    exact ⟨(hopens name _ hname).mp hbound, name, h, rfl, hname, reads_sign.mp hsign⟩
  · rintro ⟨hprev, name, h, rfl, hname, hsign⟩
    refine ⟨[], name ++ h, rfl, ⟨rfl, ?_⟩, name, h, rfl, reads_secretName.mpr hname,
      reads_sign.mpr hsign⟩
    rw [List.append_assoc]
    exact (hopens name _ hname).mpr hprev

theorem authorization_finds (hU : Alphabet U) : Regex.Finds (isWord U) authorizationPattern
    (redactMatch authorizationPattern) (authorization U) marker := by
  refine finds_of_reads (n := 2) (v := many1 isCredentialChar) (p := isCredentialChar)
    (l := [.boundary, .group 1 (.inOrder [caseless "Authorization", many isSpace, caseless ":",
      many isSpace, .oneOf [caseless "Bearer", caseless "Basic"], many1 isSpace])])
    rfl rfl (by decide) (Regex.endsGreedy_rep 1 isCredentialChar)
    (fun prev key value rest hstop => ?_) rfl
  have hvalue : Regex.Reads (isWord U) (many1 isCredentialChar) (key.getLast?.or prev) value rest ↔
      (authorization U).Value value rest :=
    reads_many1.trans (value_of_runs (G := authorization U) (fun _ => Iff.rfl) hstop)
  rw [hvalue, ← and_assoc]
  refine and_congr_left fun _ => ?_
  have hopens : ∀ w l : List Char, Spells "Authorization" w →
      (prev.any (isWord U) ≠ (w ++ l).head?.any (isWord U) ↔ (authorization U).opens prev) := by
    intro w l hw
    obtain ⟨c, w', rfl, hc⟩ := hw.head rfl
    exact boundary_iff (isWord_of_isKeyChar hU
      ((isKeyChar_iff c).mpr (.inl (isLetter_of_caseFold hc rfl))))
  constructor
  · rintro ⟨_, w, rfl, ⟨rfl, hbound⟩, hkey⟩
    have hkey := reads_authorization.mp hkey
    refine ⟨?_, hkey⟩
    obtain ⟨w₁, s₁, s₂, w₂, s₃, rfl, h₁, -⟩ := hkey
    rw [List.append_assoc, List.append_assoc] at hbound
    exact (hopens w₁ _ h₁).mp hbound
  · rintro ⟨hprev, hkey⟩
    refine ⟨[], key, rfl, ⟨rfl, ?_⟩, reads_authorization.mpr hkey⟩
    obtain ⟨w₁, s₁, s₂, w₂, s₃, rfl, h₁, -⟩ := hkey
    rw [List.append_assoc, List.append_assoc]
    exact (hopens w₁ _ h₁).mpr hprev

theorem nakedKey_finds : Regex.Finds (isWord U) nakedKeyPattern (redactMatch nakedKeyPattern)
    (nakedKey U) marker := by
  refine finds_of_reads (n := 1)
    (v := .inOrder [exactly "sk-", .rep 16 none isNakedKeyChar]) (p := isNakedKeyChar)
    (l := [.boundary]) rfl rfl (by decide)
    ((Regex.endsGreedy_rep 16 isNakedKeyChar).seq _) (fun prev key value rest hstop => ?_) rfl
  constructor
  · rintro ⟨⟨rfl, hbound⟩, _, w, rfl, hsk, hw, hlen⟩
    rw [reads_exactly.mp hsk] at hbound ⊢
    refine ⟨(boundary_iff (by rfl)).mp hbound, rfl, "sk-".toList ++ w.take 16, w.drop 16, ?_,
      ⟨_, rfl, ?_, ?_⟩, ?_, hstop⟩
    · simp
    · simpa [Regex.admits] using hlen
    · exact fun c hc => hw c (List.mem_of_mem_take hc)
    · exact fun c hc => hw c (List.mem_of_mem_drop hc)
  · rintro ⟨hprev, rfl, a, w, rfl, ⟨w₀, rfl, hlen, hw₀⟩, hw, -⟩
    refine ⟨⟨rfl, ?_⟩, "sk-".toList, w₀ ++ w, by simp, reads_exactly.mpr rfl, ?_, ?_⟩
    · exact (boundary_iff (c := 's') (by rfl)).mpr hprev
    · intro c hc
      rcases List.mem_append.mp hc with hc | hc
      · exact hw₀ c hc
      · exact hw c hc
    · simp [Regex.admits, hlen]

theorem signature_finds : Regex.Finds (isWord U) signaturePattern (redactMatch signaturePattern)
    signature marker := by
  refine finds_of_reads (n := 2)
    (v := .inOrder [caseless "sha256=", many1 isHexDigit]) (p := isHexDigit)
    (l := [.group 1 (.inOrder [caseless "X-Hub-Signature-256", many isSpace, caseless ":",
      many isSpace])]) rfl rfl (by decide) ((Regex.endsGreedy_rep 1 isHexDigit).seq _)
    (fun prev key value rest hstop => ?_) rfl
  have hsha : ∀ prev w rest, (Regex.Reads (isWord U) (caseless "sha256=") prev w rest ↔
      Spells "sha256=" w) := fun _ _ _ => reads_caseless (headers_ascii "sha256=" (by simp))
  constructor
  · rintro ⟨hkey, w, d, rfl, hw, hd⟩
    obtain ⟨hall, hne⟩ := reads_many1.mp hd
    cases d with
    | nil => exact absurd rfl hne
    | cons c d =>
      refine ⟨trivial, reads_signatureName.mp hkey, w ++ [c], d, by simp,
        ⟨w, c, rfl, (hsha _ _ _).mp hw, hall c List.mem_cons_self⟩, ?_, hstop⟩
      exact fun x hx => hall x (List.mem_cons_of_mem c hx)
  · rintro ⟨-, hkey, a, d, rfl, ⟨w, c, rfl, hw, hc⟩, hd, -⟩
    refine ⟨reads_signatureName.mpr hkey, w, c :: d, by simp, (hsha _ _ _).mpr hw,
      reads_many1.mpr ⟨?_, List.cons_ne_nil c d⟩⟩
    intro x hx
    rcases List.mem_cons.mp hx with rfl | hx
    · exact hc
    · exact hd x hx

end Finds

/-! ## `redact` as four passes -/

section Redact

variable {U : Unicode}

/-- One round of the loop of `redact`. -/
def pass (U : Unicode) (r : Regex) (t : List Char) : List Char :=
  Regex.sub (isWord U) r (redactMatch r) t

theorem toList_redact (text : String) (patterns : List Regex) :
    (redact U text patterns).toList = patterns.foldl (fun out r => pass U r out) text.toList := by
  rw [redact, String.toList_ofList]
  rfl

theorem masks_assignment (hU : Alphabet U) (t : List Char) :
    (assignment U).Masks marker [] t (pass U assignmentPattern t) :=
  Regex.masks_sub assignment_lawful (assignment_separate hU) (assignment_finds hU) t

theorem masks_authorization (hU : Alphabet U) (t : List Char) :
    (authorization U).Masks marker [] t (pass U authorizationPattern t) :=
  Regex.masks_sub authorization_lawful (authorization_separate hU) (authorization_finds hU) t

theorem masks_nakedKey (t : List Char) :
    (nakedKey U).Masks marker [] t (pass U nakedKeyPattern t) :=
  Regex.masks_sub nakedKey_lawful nakedKey_separate nakedKey_finds t

theorem masks_signature (t : List Char) :
    signature.Masks marker [] t (pass U signaturePattern t) :=
  Regex.masks_sub signature_lawful signature_separate signature_finds t

end Redact

end Wapsell.Security
