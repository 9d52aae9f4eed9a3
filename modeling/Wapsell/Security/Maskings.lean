import Wapsell.Lib.Replacement
import Wapsell.Security.Characters

/-!
# What the default patterns mask

Each default pattern as a masking: what its key is, how the value begins and
what the value goes on with. Replacing with a pattern is the pass of its
masking, with `<redacted>` as the marker.

The names are words of a list and words with an ending of another, as
the pattern spells them; the values are runs of the characters that the
pattern lets a value have. For each masking it is shown that keys are
told apart from values by their characters, which is what lets a pass be
described by its matches from left to right.

What this does not establish: that these are all the secrets there are.
A value under a name outside the families is left as it is.
-/

namespace Wapsell.Security

open Lib Py

/-- `<redacted>` as a marker. -/
def marker : Marker Char where
  first := '<'
  inner := "redacted".toList
  last := '>'
  first_notMem := by decide

theorem marker_text : marker.text = REDACTED.toList := by decide

/-- What the Unicode tables say of the letters that fold to ASCII and of white space: the first are
alphanumeric and the second is not. Of all other characters nothing is assumed. -/
structure Alphabet (U : Unicode) : Prop where
  isAlnum_letter : ∀ c, isLetter c = true → 128 ≤ c.toNat → U.isAlnum c = true
  isAlnum_space : ∀ c, isSpace c = true → 128 ≤ c.toNat → U.isAlnum c = false

/-! ## The four maskings -/

/-- The names that are listed one by one. -/
def listedNames : List String := ["OPENROUTER_API_KEY", "OPENAI_API_KEY", "GEMINI_API_KEY",
  "META_APP_SECRET", "META_VERIFY_TOKEN", "WAPSELL_ENCRYPTION_KEY", "WASELLER_ENCRYPTION_KEY"]

/-- The endings of the other names. -/
def nameEndings : List String := ["_TOKEN", "_SECRET", "_PASSWORD"]

/-- A name of the default families: one that is listed, or one with a listed ending behind a
letter. -/
def IsSecretName (k : List Char) : Prop :=
  (∃ name ∈ listedNames, Spells name k) ∨
    ∃ c body ending, k = c :: (body ++ ending) ∧ isLetter c = true ∧
      (∀ x ∈ body, isKeyChar x = true) ∧ ∃ e ∈ nameEndings, Spells e ending

/-- White space. -/
def Blank (w : List Char) : Prop := ∀ c ∈ w, isSpace c = true

/-- What stands between the name and the value of an assignment: a colon or an equals sign with
blanks around it, and a quote behind these if there is one. -/
def IsSign (h : List Char) : Prop :=
  ∃ s₁ c s₂ q, h = s₁ ++ c :: (s₂ ++ q) ∧ Blank s₁ ∧ (c = ':' ∨ c = '=') ∧ Blank s₂ ∧
    (q = [] ∨ q = ['\''] ∨ q = ['"'])

/-- Env-style assignments. -/
def assignment (U : Unicode) : Masking Char where
  opens prev := prev.any (isWord U) = false
  key k := ∃ name h, k = name ++ h ∧ IsSecretName name ∧ IsSign h
  core a := ∃ c, a = [c] ∧ isValueChar c = true
  more := isValueChar

/-- The name of an authorization header, up to its credential. -/
def IsAuthorization (k : List Char) : Prop :=
  ∃ a s₁ s₂ b s₃, k = a ++ (s₁ ++ ':' :: s₂) ++ (b ++ s₃) ∧ Spells "Authorization" a ∧ Blank s₁ ∧
    Blank s₂ ∧ (Spells "Bearer" b ∨ Spells "Basic" b) ∧ Blank s₃ ∧ s₃ ≠ []

/-- Authorization headers. -/
def authorization (U : Unicode) : Masking Char where
  opens prev := prev.any (isWord U) = false
  key := IsAuthorization
  core a := ∃ c, a = [c] ∧ isCredentialChar c = true
  more := isCredentialChar

/-- Naked keys. -/
def nakedKey (U : Unicode) : Masking Char where
  opens prev := prev.any (isWord U) = false
  key k := k = []
  core a := ∃ w, a = "sk-".toList ++ w ∧ w.length = 16 ∧ ∀ c ∈ w, isNakedKeyChar c = true
  more := isNakedKeyChar

/-- A naked key from its first to its last character. -/
def IsNakedKey (U : Unicode) (v : List Char) : Prop := (nakedKey U).Value v []

/-- The name of a signature header, up to the signature. -/
def IsSignatureName (k : List Char) : Prop :=
  ∃ h s₁ s₂, k = h ++ (s₁ ++ ':' :: s₂) ∧ Spells "X-Hub-Signature-256" h ∧ Blank s₁ ∧ Blank s₂

/-- Meta's signature header. -/
def signature : Masking Char where
  opens _ := True
  key := IsSignatureName
  core a := ∃ w c, a = w ++ [c] ∧ Spells "sha256=" w ∧ isHexDigit c = true
  more := isHexDigit

/-! ## Characters of the keys -/

/-- What the sign of an assignment is made of. -/
def isSignChar (c : Char) : Bool :=
  isSpace c || c = ':' || c = '=' || c = '\'' || c = '"'

example : ": \"".toList.all isSignChar = true := by decide +kernel

theorem isSignChar_iff (c : Char) : isSignChar c = true ↔ isSpace c = true ∨ c.toNat = 58 ∨
    c.toNat = 61 ∨ c.toNat = 39 ∨ c.toNat = 34 := by
  simp [isSignChar, char_eq_iff, or_assoc]

theorem isKeyChar_of_isSignChar {c : Char} (h : isSignChar c = true) : isKeyChar c = false := by
  rw [← Bool.not_eq_true, isKeyChar_iff, isLetter_iff]
  rw [isSignChar_iff, isSpace_iff] at h
  omega

theorem isLetter_of_isSpace {c : Char} (h : isSpace c = true) : isLetter c = false := by
  rw [← Bool.not_eq_true, isLetter_iff]
  rw [isSpace_iff] at h
  omega

theorem isWord_of_isKeyChar {U : Unicode} (hU : Alphabet U) {c : Char} (h : isKeyChar c = true) :
    isWord U c = true := by
  unfold isWord
  rw [isKeyChar_iff] at h
  split
  next hlt =>
    rw [Bool.or_eq_true, Char.isAlphanum, Bool.or_eq_true, isAlpha_iff, isUpper_iff, isLower_iff,
      isDigit_iff, beq_iff_eq, char_eq_iff]
    rw [isLetter_iff] at h
    simp only [Char.reduceToNat]
    omega
  next hge =>
    have hletter : isLetter c = true := by
      rw [isLetter_iff] at h ⊢
      omega
    exact hU.isAlnum_letter c hletter (Nat.not_lt.mp hge)

theorem isWord_of_isSpace {U : Unicode} (hU : Alphabet U) {c : Char} (h : isSpace c = true) :
    isWord U c = false := by
  unfold isWord
  split
  next hlt =>
    rw [← Bool.not_eq_true, Bool.or_eq_true, Char.isAlphanum, Bool.or_eq_true, isAlpha_iff,
      isUpper_iff, isLower_iff, isDigit_iff, beq_iff_eq, char_eq_iff]
    rw [isSpace_iff] at h
    simp only [Char.reduceToNat]
    omega
  next hge => exact hU.isAlnum_space c h (Nat.not_lt.mp hge)

theorem Spells.letters {s : String} {w : List Char} (h : Spells s w)
    (hs : ∀ c ∈ s.toList, isLetter c.toLower = true) : ∀ c ∈ w, isLetter c = true := by
  intro c hc
  have hmem : caseFold c ∈ s.toList.map Char.toLower := h ▸ List.mem_map_of_mem hc
  obtain ⟨d, hd, heq⟩ := List.mem_map.mp hmem
  rw [← isLetter_caseFold, ← heq]
  exact hs d hd

theorem Spells.keyChars {s : String} {w : List Char} (h : Spells s w)
    (hs : ∀ c ∈ s.toList, isLetter c.toLower = true ∨ c = '_') :
    ∀ c ∈ w, isKeyChar c = true := by
  intro c hc
  have hmem : caseFold c ∈ s.toList.map Char.toLower := h ▸ List.mem_map_of_mem hc
  obtain ⟨d, hd, heq⟩ := List.mem_map.mp hmem
  rw [isKeyChar_iff, ← isLetter_caseFold, ← heq]
  rcases hs d hd with hletter | rfl
  · exact .inl hletter
  · have := (caseFold_eq_iff (c := c) (d := '_') rfl).mp heq.symm
    exact .inr (.inr (by rw [this]; rfl))

/-- The literal's own characters that have no case stand in what spells it. -/
theorem Spells.mem {s : String} {w : List Char} (h : Spells s w) {d : Char} (hd : d ∈ s.toList)
    (hlower : d.toLower = d) (hletter : isLetter d = false) : d ∈ w := by
  have hmem : d ∈ w.map caseFold := by
    rw [h]
    exact List.mem_map.mpr ⟨d, hd, hlower⟩
  obtain ⟨c, hc, heq⟩ := List.mem_map.mp hmem
  rwa [← (caseFold_eq_iff hletter).mp heq]

theorem Spells.length {s : String} {w : List Char} (h : Spells s w) :
    w.length = s.toList.length := by
  simpa using congrArg List.length h

/-- How a text that spells a literal begins. -/
theorem Spells.head {s : String} {w : List Char} (h : Spells s w) {d : Char} {ds : List Char}
    (hs : s.toList.map Char.toLower = d :: ds) : ∃ c w', w = c :: w' ∧ caseFold c = d := by
  cases w with
  | nil =>
    rw [Spells, hs] at h
    cases h
  | cons c w' =>
    rw [Spells, hs, List.map_cons] at h
    exact ⟨c, w', rfl, (List.cons.inj h).1⟩

theorem isLetter_of_caseFold {c d : Char} (h : caseFold c = d) (hd : isLetter d = true) :
    isLetter c = true := by
  rw [← isLetter_caseFold, h, hd]

/-! ## Names -/

/-- The literals of the names are ASCII letters and underscores, and there is an underscore. -/
theorem names_spelling : ∀ s ∈ listedNames ++ nameEndings,
    (∀ c ∈ s.toList, c.toNat < 128 ∧ (isLetter c.toLower = true ∨ c = '_')) ∧ '_' ∈ s.toList := by
  decide

theorem IsSecretName.keyChars {k : List Char} (h : IsSecretName k) :
    ∀ c ∈ k, isKeyChar c = true := by
  rcases h with ⟨name, hname, hk⟩ | ⟨c, body, ending, rfl, hc, hbody, e, he, hending⟩
  · exact hk.keyChars fun c hc => ((names_spelling name (List.mem_append_left _ hname)).1 c hc).2
  · intro x hx
    rcases List.mem_cons.mp hx with rfl | hx
    · exact (isKeyChar_iff _).mpr (.inl hc)
    rcases List.mem_append.mp hx with hx | hx
    · exact hbody x hx
    · exact hending.keyChars
        (fun c hc => ((names_spelling e (List.mem_append_right _ he)).1 c hc).2) x hx

/-- A name begins with a letter. -/
theorem IsSecretName.head {k : List Char} (h : IsSecretName k) :
    ∃ c k', k = c :: k' ∧ isLetter c = true := by
  rcases h with ⟨name, hname, hk⟩ | ⟨c, body, ending, rfl, hc, -, -⟩
  · simp only [listedNames, List.mem_cons, List.not_mem_nil, or_false] at hname
    rcases hname with rfl | rfl | rfl | rfl | rfl | rfl | rfl
    all_goals
      obtain ⟨c, k', rfl, hc⟩ := hk.head rfl
      exact ⟨c, k', rfl, isLetter_of_caseFold hc rfl⟩
  · exact ⟨c, _, rfl, hc⟩

/-- A name has an underscore. -/
theorem IsSecretName.underscore {k : List Char} (h : IsSecretName k) : '_' ∈ k := by
  rcases h with ⟨name, hname, hk⟩ | ⟨c, body, ending, rfl, hc, -, e, he, hending⟩
  · exact hk.mem (names_spelling name (List.mem_append_left _ hname)).2 rfl rfl
  · exact List.mem_cons_of_mem c (List.mem_append_right body
      (hending.mem (names_spelling e (List.mem_append_right _ he)).2 rfl rfl))

/-! ## Assignments -/

theorem IsSign.signChars {h : List Char} (hh : IsSign h) : ∀ c ∈ h, isSignChar c = true := by
  obtain ⟨s₁, d, s₂, q, rfl, h₁, hd, h₂, hq⟩ := hh
  have hspace : ∀ c, isSpace c = true → isSignChar c = true := fun c hc =>
    (isSignChar_iff c).mpr (.inl hc)
  intro c hc
  rcases List.mem_append.mp hc with hc | hc
  · exact hspace c (h₁ c hc)
  rcases List.mem_cons.mp hc with rfl | hc
  · rcases hd with rfl | rfl <;> rfl
  rcases List.mem_append.mp hc with hc | hc
  · exact hspace c (h₂ c hc)
  · rcases hq with rfl | rfl | rfl
    · cases hc
    · rw [List.mem_singleton.mp hc]
      rfl
    · rw [List.mem_singleton.mp hc]
      rfl

theorem IsSign.ne_nil {h : List Char} (hh : IsSign h) : h ≠ [] := by
  obtain ⟨s₁, d, s₂, q, rfl, -⟩ := hh
  simp

/-- The sign of an assignment ends where the value begins. -/
theorem IsSign.unique {h h' : List Char} {c c' : Char} {l l' : List Char} (hh : IsSign h)
    (hh' : IsSign h') (hc : isValueChar c = true) (hc' : isValueChar c' = true)
    (heq : h ++ c :: l = h' ++ c' :: l') : h = h' := by
  obtain ⟨s₁, d, s₂, q, rfl, h₁, hd, h₂, hq⟩ := hh
  obtain ⟨s₁', d', s₂', q', rfl, h₁', hd', h₂', hq'⟩ := hh'
  have hsep : ∀ d, (d = ':' ∨ d = '=') → ∀ rest : List Char, ∀ x ∈ (d :: rest).head?,
      isSpace x = false := by
    rintro d (rfl | rfl) rest x hx
    · cases hx; rfl
    · cases hx; rfl
  have hquote : ∀ (q : List Char) (c : Char) (l : List Char),
      (q = [] ∨ q = ['\''] ∨ q = ['"']) → isValueChar c = true →
        ∀ x ∈ (q ++ c :: l).head?, isSpace x = false := by
    rintro q c l (rfl | rfl | rfl) hc x hx
    · cases hx
      rw [isValueChar_iff, Bool.not_eq_true] at hc
      exact hc.1
    · cases hx; rfl
    · cases hx; rfl
  have hnovalue : ∀ q : List Char, (q = [] ∨ q = ['\''] ∨ q = ['"']) →
      ∀ x ∈ q, (!isValueChar x) = true := by
    rintro q (rfl | rfl | rfl) x hx
    · cases hx
    · rw [List.mem_singleton.mp hx]; rfl
    · rw [List.mem_singleton.mp hx]; rfl
  have hvalue : ∀ (c : Char) (l : List Char), isValueChar c = true →
      ∀ x ∈ (c :: l).head?, (!isValueChar x) = false := by
    intro c l hc x hx
    cases hx
    rw [hc]
    rfl
  simp only [List.append_assoc, List.cons_append] at heq
  obtain ⟨rfl, hrest⟩ := Masking.eq_of_runs h₁ (hsep d hd _) h₁' (hsep d' hd' _) heq
  obtain ⟨rfl, hspaces⟩ := List.cons.inj hrest
  obtain ⟨rfl, hquotes⟩ :=
    Masking.eq_of_runs h₂ (hquote q c l hq hc) h₂' (hquote q' c' l' hq' hc') hspaces
  obtain ⟨rfl, -⟩ :=
    Masking.eq_of_runs (hnovalue q hq) (hvalue c l hc) (hnovalue q' hq') (hvalue c' l' hc') hquotes
  rfl

section Assignment

variable {U : Unicode}

theorem assignment_key_last {k : List Char} (hk : (assignment U).key k) :
    ∃ c, k.getLast? = some c ∧ isSignChar c = true := by
  obtain ⟨name, h, rfl, -, hh⟩ := hk
  rw [List.getLast?_append_of_ne_nil _ hh.ne_nil]
  exact ⟨_, List.getLast?_eq_some_getLast hh.ne_nil,
    hh.signChars _ (List.getLast_mem hh.ne_nil)⟩

theorem assignment_key_chars {k : List Char} (hk : (assignment U).key k) :
    ∀ c ∈ k, isKeyChar c = true ∨ isSignChar c = true := by
  obtain ⟨name, h, rfl, hname, hh⟩ := hk
  intro c hc
  rcases List.mem_append.mp hc with hc | hc
  · exact .inl (hname.keyChars c hc)
  · exact .inr (hh.signChars c hc)

/-- A key begins with a letter. -/
theorem assignment_key_head {k : List Char} (hk : (assignment U).key k) :
    ∃ c k', k = c :: k' ∧ isLetter c = true := by
  obtain ⟨name, h, rfl, hname, -⟩ := hk
  obtain ⟨c, k', rfl, hc⟩ := hname.head
  exact ⟨c, k' ++ h, rfl, hc⟩

theorem assignment_runs : (assignment U).Runs := fun _ => Iff.rfl

theorem assignment_holds : (assignment U).Holds marker :=
  ⟨assignment_runs, show ∀ c ∈ marker.text, isValueChar c = true by decide⟩

theorem assignment_lawful : (assignment U).Lawful marker where
  core_ne_nil a ha := by
    obtain ⟨c, rfl, -⟩ := ha
    exact List.cons_ne_nil c []
  core_unique a a' l l' ha ha' heq := by
    obtain ⟨c, rfl, -⟩ := ha
    obtain ⟨c', rfl, -⟩ := ha'
    rw [(List.cons.inj heq).1]
  core_tail a ha := by
    obtain ⟨c, rfl, -⟩ := ha
    exact List.not_mem_nil
  key_last k hk hmem := by
    rcases assignment_key_chars hk _ hmem with h | h
    · exact absurd h (by decide)
    · exact absurd h (by decide)
  apart b m₁ m₂ v r y h₁ _ heq _ :=
    Masking.apart_of_last (fun _ => assignment_key_last) (by decide) h₁ heq
  marker_value := .inr assignment_holds

theorem isValueChar_of_isLetter {c : Char} (h : isLetter c = true) : isValueChar c = true := by
  rw [isValueChar_iff, isSpace_iff]
  rw [isLetter_iff] at h
  omega

theorem assignment_separate (hU : Alphabet U) : (assignment U).Separate where
  key_unique k v r k' v' r' hk hv hk' hv' heq := by
    obtain ⟨name, h, rfl, hname, hh⟩ := hk
    obtain ⟨name', h', rfl, hname', hh'⟩ := hk'
    obtain ⟨a, w, rfl, ⟨c, rfl, hc⟩, -, -⟩ := hv
    obtain ⟨a', w', rfl, ⟨c', rfl, hc'⟩, -, -⟩ := hv'
    have hsign : ∀ h : List Char, IsSign h → ∀ l, ∀ x ∈ (h ++ l).head?, isKeyChar x = false := by
      intro h hh l x hx
      rw [List.head?_append_of_ne_nil _ hh.ne_nil] at hx
      exact isKeyChar_of_isSignChar (hh.signChars x (List.mem_of_head? hx))
    simp only [List.append_assoc, List.singleton_append] at heq
    obtain ⟨rfl, hrest⟩ := Masking.eq_of_runs hname.keyChars (hsign h hh _) hname'.keyChars
      (hsign h' hh' _) heq
    rw [hh.unique hh' hc hc' hrest]
  inside a b k hk ha _ hopens hk' hpre := by
    obtain ⟨name, h, heq, hname, hh⟩ := hk
    obtain ⟨c, k', rfl, hc⟩ := assignment_key_head hk'
    obtain ⟨t, rfl⟩ := hpre
    rcases List.append_eq_append_iff.mp heq with ⟨d, rfl, -⟩ | ⟨d, -, rfl⟩
    · -- inside the name there is a word character before
      rw [List.getLast?_eq_some_getLast ha] at hopens
      have hword := isWord_of_isKeyChar hU
        (hname.keyChars _ (List.mem_append_left d (List.getLast_mem ha)))
      exact absurd (hword.symm.trans hopens) (by decide)
    · -- the sign has no letter
      have hsign := isKeyChar_of_isSignChar (hh.signChars c (by simp))
      exact absurd (hsign.symm.trans ((isKeyChar_iff c).mpr (.inl hc))) (by decide)
  after v k v' r o o' hv hk _ _ := by
    obtain ⟨c, k', rfl, hc⟩ := assignment_key_head hk
    have hstop := hv.stops c rfl
    rw [show (assignment U).more c = isValueChar c from rfl, isValueChar_of_isLetter hc] at hstop
    cases hstop

end Assignment

theorem isValueChar_of_isCredentialChar {c : Char} (h : isCredentialChar c = true) :
    isValueChar c = true := by
  rw [isValueChar_iff, isSpace_iff]
  rw [isCredentialChar_iff, isLetter_iff] at h
  omega

theorem isValueChar_of_isNakedKeyChar {c : Char} (h : isNakedKeyChar c = true) :
    isValueChar c = true := by
  rw [isValueChar_iff, isSpace_iff]
  rw [isNakedKeyChar_iff] at h
  omega

/-! ## Authorization headers -/

section Authorization

variable {U : Unicode}

theorem authorization_letters {w : List Char} (h : Spells "Authorization" w) :
    ∀ c ∈ w, isLetter c = true := h.letters (by decide)

/-- The scheme is letters, and begins with a B. -/
theorem scheme_letters {w : List Char} (h : Spells "Bearer" w ∨ Spells "Basic" w) :
    (∀ c ∈ w, isLetter c = true) ∧ ∃ c w', w = c :: w' ∧ caseFold c = 'b' := by
  rcases h with h | h
  · exact ⟨h.letters (by decide), h.head rfl⟩
  · exact ⟨h.letters (by decide), h.head rfl⟩

theorem authorization_key_chars {k : List Char} (hk : IsAuthorization k) :
    ∀ c ∈ k, isLetter c = true ∨ isSpace c = true ∨ c = ':' := by
  obtain ⟨w₁, s₁, s₂, w₂, s₃, rfl, h₁, hs₁, hs₂, h₂, hs₃, -⟩ := hk
  intro c hc
  simp only [List.mem_append, List.mem_cons] at hc
  rcases hc with (hc | hc | hc | hc) | hc | hc
  · exact .inl (authorization_letters h₁ c hc)
  · exact .inr (.inl (hs₁ c hc))
  · exact .inr (.inr hc)
  · exact .inr (.inl (hs₂ c hc))
  · exact .inl ((scheme_letters h₂).1 c hc)
  · exact .inr (.inl (hs₃ c hc))

theorem authorization_key_last {k : List Char} (hk : IsAuthorization k) :
    ∃ c, k.getLast? = some c ∧ isSpace c = true := by
  obtain ⟨w₁, s₁, s₂, w₂, s₃, rfl, -, -, -, -, hs₃, hne⟩ := hk
  rw [← List.append_assoc, List.getLast?_append_of_ne_nil _ hne]
  exact ⟨_, List.getLast?_eq_some_getLast hne, hs₃ _ (List.getLast_mem hne)⟩

theorem authorization_key_head {k : List Char} (hk : IsAuthorization k) :
    ∃ c k', k = c :: k' ∧ caseFold c = 'a' := by
  obtain ⟨w₁, s₁, s₂, w₂, s₃, rfl, h₁, -⟩ := hk
  obtain ⟨c, w, rfl, hc⟩ := h₁.head rfl
  exact ⟨c, _, rfl, hc⟩

theorem authorization_lawful : (authorization U).Lawful marker where
  core_ne_nil a ha := by
    obtain ⟨c, rfl, -⟩ := ha
    exact List.cons_ne_nil c []
  core_unique a a' l l' ha ha' heq := by
    obtain ⟨c, rfl, -⟩ := ha
    obtain ⟨c', rfl, -⟩ := ha'
    rw [(List.cons.inj heq).1]
  core_tail a ha := by
    obtain ⟨c, rfl, -⟩ := ha
    exact List.not_mem_nil
  key_last k hk hmem := by
    rcases authorization_key_chars hk _ hmem with h | h | h
    · exact absurd h (by decide)
    · exact absurd h (by decide)
    · exact absurd h (by decide)
  apart b m₁ m₂ v r y h₁ _ heq _ :=
    Masking.apart_of_last (fun _ => authorization_key_last) (by decide) h₁ heq
  marker_value := .inl fun a ha hhead => by
    obtain ⟨c, rfl, hc⟩ := ha
    rw [Option.some.inj hhead] at hc
    exact absurd hc (by decide)

theorem isCredentialChar_of_isLetter {c : Char} (h : isLetter c = true) :
    isCredentialChar c = true := (isCredentialChar_iff c).mpr (.inl h)

theorem isSpace_of_isCredentialChar {c : Char} (h : isCredentialChar c = true) :
    isSpace c = false := by
  rw [← Bool.not_eq_true, isSpace_iff]
  rw [isCredentialChar_iff, isLetter_iff] at h
  omega

/-- What is not white space ends a run of white space. -/
private theorem space_stops {c : Char} (h : isSpace c = false) (l : List Char) :
    ∀ x ∈ (c :: l).head?, isSpace x = false := by
  intro x hx
  cases hx
  exact h

/-- White space, or a colon behind it, ends a run of letters. -/
private theorem letters_stop {s l : List Char} (hs : Blank s) (hl : s ≠ [] ∨ ∃ l', l = ':' :: l') :
    ∀ x ∈ (s ++ l).head?, isLetter x = false := by
  intro x hx
  cases s with
  | nil =>
    rcases hl with h | ⟨l', rfl⟩
    · exact absurd rfl h
    · cases hx
      rfl
  | cons c s =>
    cases hx
    exact isLetter_of_isSpace (hs x List.mem_cons_self)

theorem isSpace_of_caseFold {c d : Char} (h : caseFold c = d) (hd : isLetter d = true) :
    isSpace c = false := by
  have hletter := isLetter_of_caseFold h hd
  rw [← Bool.not_eq_true]
  intro hspace
  rw [isLetter_of_isSpace hspace] at hletter
  cases hletter

theorem authorization_separate (hU : Alphabet U) : (authorization U).Separate where
  key_unique k v r k' v' r' hk hv hk' hv' heq := by
    obtain ⟨w₁, s₁, s₂, w₂, s₃, rfl, h₁, hs₁, hs₂, h₂, hs₃, hne⟩ := hk
    obtain ⟨w₁', s₁', s₂', w₂', s₃', rfl, h₁', hs₁', hs₂', h₂', hs₃', hne'⟩ := hk'
    obtain ⟨a, w, rfl, ⟨c, rfl, hc⟩, -, -⟩ := hv
    obtain ⟨a', w', rfl, ⟨c', rfl, hc'⟩, -, -⟩ := hv'
    obtain ⟨hl₂, d, u, hd, hb⟩ := scheme_letters h₂
    obtain ⟨hl₂', d', u', hd', hb'⟩ := scheme_letters h₂'
    simp only [List.append_assoc, List.cons_append, List.nil_append] at heq
    obtain ⟨rfl, heq₁⟩ := Masking.eq_of_runs (authorization_letters h₁)
      (letters_stop hs₁ (.inr ⟨_, rfl⟩)) (authorization_letters h₁')
      (letters_stop hs₁' (.inr ⟨_, rfl⟩)) heq
    obtain ⟨rfl, heq₂⟩ := Masking.eq_of_runs hs₁ (space_stops (c := ':') rfl _) hs₁'
      (space_stops (c := ':') rfl _) heq₁
    have heq₃ := (List.cons.inj heq₂).2
    have hspaces : s₂ = s₂' := by
      rw [hd, hd'] at heq₃
      exact (Masking.eq_of_runs hs₂ (space_stops (isSpace_of_caseFold hb rfl) _) hs₂'
        (space_stops (isSpace_of_caseFold hb' rfl) _) heq₃).1
    subst hspaces
    obtain ⟨rfl, heq₄⟩ := Masking.eq_of_runs hl₂ (letters_stop hs₃ (.inl hne)) hl₂'
      (letters_stop hs₃' (.inl hne')) (List.append_cancel_left heq₃)
    obtain ⟨rfl, -⟩ := Masking.eq_of_runs hs₃
      (space_stops (isSpace_of_isCredentialChar hc) _) hs₃'
      (space_stops (isSpace_of_isCredentialChar hc') _) heq₄
    rfl
  inside a b k hk ha _ hopens hk' hpre := by
    obtain ⟨w₁, s₁, s₂, w₂, s₃, heq, h₁, hs₁, hs₂, h₂, hs₃, hne⟩ := hk
    obtain ⟨c, k', rfl, hc⟩ := authorization_key_head hk'
    obtain ⟨t, rfl⟩ := hpre
    have hletter := isLetter_of_caseFold hc rfl
    obtain ⟨hl₂, d, u, hd, hb⟩ := scheme_letters h₂
    -- inside a word there is a word character before
    have hword : ∀ c, a.getLast? = some c → ¬ isLetter c = true := by
      intro c hlast hlet
      rw [hlast] at hopens
      have hword := isWord_of_isKeyChar hU ((isKeyChar_iff c).mpr (.inl hlet))
      exact absurd (hword.symm.trans hopens) (by decide)
    have hblank : ∀ s, Blank s → c ∉ s := fun s hs hmem =>
      absurd ((isLetter_of_isSpace (hs c hmem)).symm.trans hletter) (by decide)
    have hmid : c ∉ s₁ ++ ':' :: s₂ := by
      intro hmem
      rcases List.mem_append.mp hmem with hmem | hmem
      · exact hblank s₁ hs₁ hmem
      rcases List.mem_cons.mp hmem with rfl | hmem
      · exact absurd hletter (by decide)
      · exact hblank s₂ hs₂ hmem
    have hscheme : ∀ l l' : List Char, c :: l ≠ w₂ ++ l' := by
      rintro l l' h
      rw [hd] at h
      rw [(List.cons.inj h).1] at hc
      exact absurd (hc.symm.trans hb) (by decide)
    rw [List.append_assoc] at heq
    rcases List.append_eq_append_iff.mp heq with ⟨e, rfl, -⟩ | ⟨e, rfl, heq₁⟩
    · refine hword _ (List.getLast?_eq_some_getLast ha) (authorization_letters h₁ _ ?_)
      exact List.mem_append_left e (List.getLast_mem ha)
    rcases List.append_eq_append_iff.mp heq₁ with ⟨f, rfl, heq₂⟩ | ⟨f, heq₂, heq₃⟩
    · rcases List.append_eq_append_iff.mp heq₂ with ⟨g, -, rfl⟩ | ⟨g, heq₃, heq₄⟩
      · exact hblank _ hs₃ (by simp)
      · cases f with
        | nil =>
          rw [List.nil_append] at heq₃
          exact hscheme _ _ (heq₃ ▸ heq₄)
        | cons x f =>
          refine hword ((x :: f).getLast (List.cons_ne_nil x f)) ?_ (hl₂ _ ?_)
          · rw [← List.append_assoc, List.getLast?_append_of_ne_nil _ (List.cons_ne_nil x f),
              List.getLast?_eq_some_getLast]
          · rw [heq₃]
            exact List.mem_append_left g (List.getLast_mem _)
    · cases f with
      | nil => exact hscheme _ _ heq₃
      | cons x f =>
        refine hmid ?_
        rw [heq₂, (List.cons.inj heq₃).1]
        simp
  after v k v' r o o' hv hk _ _ := by
    obtain ⟨c, k', rfl, hc⟩ := authorization_key_head hk
    have hstop := hv.stops c rfl
    have hcred := isCredentialChar_of_isLetter (isLetter_of_caseFold hc rfl)
    exact absurd (hcred.symm.trans hstop) (by decide)

end Authorization

/-! ## Naked keys -/

section NakedKey

variable {U : Unicode}

theorem nakedKey_core_head {a : List Char} (ha : (nakedKey U).core a) : a.head? = some 's' := by
  obtain ⟨w, rfl, -, -⟩ := ha
  rfl

theorem nakedKey_core_chars {a : List Char} (ha : (nakedKey U).core a) :
    ∀ c ∈ a, isNakedKeyChar c = true := by
  obtain ⟨w, rfl, -, hw⟩ := ha
  intro c hc
  rcases List.mem_append.mp hc with hc | hc
  · exact (by decide : ∀ c ∈ "sk-".toList, isNakedKeyChar c = true) c hc
  · exact hw c hc

theorem nakedKey_core_length {a : List Char} (ha : (nakedKey U).core a) : a.length = 19 := by
  obtain ⟨w, rfl, hlen, -⟩ := ha
  rw [List.length_append, hlen]
  rfl

/-- In a name of the default families no naked key begins. -/
theorem no_nakedKey_in_name (hU : Alphabet U) {name : List Char} (hname : IsSecretName name)
    (o l : List Char) : (nakedKey U).Quiet o name l := by
  rintro k₁ k₂ hsplit hne v r heq ⟨⟨b, k', ho, rfl, hopens⟩, a, w, rfl, ⟨w₀, rfl, -, -⟩, -, -⟩
  have hchars := hname.keyChars
  rcases List.eq_nil_or_concat k₁ with rfl | ⟨k₁, d, rfl⟩
  · -- the name would be a part of `sk`, without an underscore
    have hunderscore := hname.underscore
    have hsk : name ++ l = 's' :: 'k' :: '-' :: (w₀ ++ w ++ r) := by
      rw [hsplit, List.nil_append, heq]
      simp
    rcases name with _ | ⟨x, _ | ⟨y, _ | ⟨z, name⟩⟩⟩
    · exact absurd hunderscore List.not_mem_nil
    · rw [(List.cons.inj hsk).1] at hunderscore
      exact absurd hunderscore (by decide)
    · simp only [List.cons_append, List.cons.injEq] at hsk
      rw [hsk.1, hsk.2.1] at hunderscore
      exact absurd hunderscore (by decide)
    · simp only [List.cons_append, List.cons.injEq] at hsk
      have hdash := hchars z (by simp)
      rw [hsk.2.2.1] at hdash
      exact absurd hdash (by decide)
  · -- inside the name there is a word character before
    rw [List.concat_eq_append] at *
    rw [List.append_nil] at ho
    have hword := isWord_of_isKeyChar hU (hchars d (by rw [hsplit]; simp))
    rw [← ho, ← List.append_assoc, List.getLast?_concat] at hopens
    exact absurd (hword.symm.trans hopens) (by decide)

theorem nakedKey_lawful : (nakedKey U).Lawful marker where
  core_ne_nil a ha hnil := by
    rw [hnil] at ha
    cases nakedKey_core_head ha
  core_unique a a' l l' ha ha' heq :=
    (List.append_inj heq ((nakedKey_core_length ha).trans (nakedKey_core_length ha').symm)).1
  core_tail a ha hmem :=
    absurd (nakedKey_core_chars ha _ (List.mem_of_mem_tail hmem)) (by decide)
  key_last k hk := by
    rw [show k = [] from hk]
    exact List.not_mem_nil
  apart b m₁ m₂ v r y _ h₂ heq hv :=
    Masking.apart_of_head (fun a ha => ⟨'s', nakedKey_core_head ha, by decide⟩) h₂ heq hv
  marker_value := .inl fun a ha hhead =>
    absurd (Option.some.inj ((nakedKey_core_head ha).symm.trans hhead)) (by decide)

theorem nakedKey_separate : (nakedKey U).Separate where
  key_unique k v r k' v' r' hk _ hk' _ _ := by rw [show k = [] from hk, show k' = [] from hk']
  inside a b k hk ha _ _ _ := absurd (List.append_eq_nil_iff.mp hk).1 ha
  after v k v' r o o' hv hk hv' _ := by
    obtain ⟨a, w, rfl, ha, -, -⟩ := hv'
    rw [show k = [] from hk, List.nil_append, List.append_assoc] at hv
    have hhead := nakedKey_core_head ha
    have hstop := hv.stops 's' (by
      rw [List.head?_append_of_ne_nil a (nakedKey_lawful.core_ne_nil a ha), hhead]
      rfl)
    exact absurd (show isNakedKeyChar 's' = false from hstop) (by decide)

end NakedKey

/-! ## Signature headers -/

/-- A character outside a literal stands in nothing that spells it. -/
theorem Spells.not_mem {s : String} {w : List Char} (h : Spells s w) {c : Char}
    (hc : caseFold c ∉ s.toList.map Char.toLower) : c ∉ w := fun hmem =>
  hc (h ▸ List.mem_map_of_mem hmem)

theorem signature_key_chars {k : List Char} (hk : IsSignatureName k) :
    ∀ c ∈ k, caseFold c ∈ "x-hub-signature-256".toList ∨ isSpace c = true ∨ c = ':' := by
  obtain ⟨h, s₁, s₂, rfl, hh, hs₁, hs₂⟩ := hk
  intro c hc
  simp only [List.mem_append, List.mem_cons] at hc
  rcases hc with hc | hc | hc | hc
  · have hmem : caseFold c ∈ "X-Hub-Signature-256".toList.map Char.toLower :=
      hh ▸ List.mem_map_of_mem hc
    exact .inl hmem
  · exact .inr (.inl (hs₁ c hc))
  · exact .inr (.inr hc)
  · exact .inr (.inl (hs₂ c hc))

theorem signature_key_last {k : List Char} (hk : IsSignatureName k) :
    ∃ c, k.getLast? = some c ∧ (isSpace c = true ∨ c = ':') := by
  obtain ⟨h, s₁, s₂, rfl, -, -, hs₂⟩ := hk
  rw [← List.append_assoc, List.getLast?_append_of_ne_nil _ (List.cons_ne_nil _ _)]
  cases s₂ with
  | nil => exact ⟨':', rfl, .inr rfl⟩
  | cons c s =>
    refine ⟨_, List.getLast?_eq_some_getLast (List.cons_ne_nil _ _), .inl ?_⟩
    rw [List.getLast_cons (List.cons_ne_nil c s)]
    exact hs₂ _ (List.getLast_mem _)

theorem signature_core_head {a : List Char} (ha : signature.core a) :
    ∃ c a', a = c :: a' ∧ caseFold c = 's' := by
  obtain ⟨w, d, rfl, hw, -⟩ := ha
  obtain ⟨c, w', rfl, hc⟩ := hw.head rfl
  exact ⟨c, w' ++ [d], rfl, hc⟩

theorem signature_core_length {a : List Char} (ha : signature.core a) : a.length = 8 := by
  obtain ⟨w, d, rfl, hw, -⟩ := ha
  rw [List.length_append, hw.length]
  rfl

theorem signature_core_not_mem {a : List Char} (ha : signature.core a) {c : Char}
    (hc : caseFold c ∉ "sha256=".toList) (hhex : isHexDigit c = false) : c ∉ a := by
  obtain ⟨w, d, rfl, hw, hd⟩ := ha
  intro hmem
  rcases List.mem_append.mp hmem with hmem | hmem
  · exact hw.not_mem hc hmem
  · rw [← List.mem_singleton.mp hmem, hhex] at hd
    cases hd

/-- The characters of a signature are letters of `sha256=` and hexadecimal digits. -/
theorem signature_value_not_mem {v r : List Char} (hv : signature.Value v r) {c : Char}
    (hc : caseFold c ∉ "sha256=".toList) (hhex : isHexDigit c = false) : c ∉ v := by
  obtain ⟨a, w, rfl, ha, hw, -⟩ := hv
  intro hmem
  rcases List.mem_append.mp hmem with hmem | hmem
  · exact signature_core_not_mem ha hc hhex hmem
  · exact absurd ((hw c hmem).symm.trans hhex) (by decide)

theorem signature_lawful : signature.Lawful marker where
  core_ne_nil a ha hnil := by
    obtain ⟨c, a', rfl, -⟩ := signature_core_head ha
    cases hnil
  core_unique a a' l l' ha ha' heq :=
    (List.append_inj heq ((signature_core_length ha).trans (signature_core_length ha').symm)).1
  core_tail a ha hmem :=
    signature_core_not_mem ha (by decide) (by decide) (List.mem_of_mem_tail hmem)
  key_last k hk hmem := by
    rcases signature_key_chars hk _ hmem with h | h | h
    · exact absurd h (by decide)
    · exact absurd h (by decide)
    · exact absurd h (by decide)
  apart b m₁ m₂ v r y h₁ _ heq _ := by
    refine Masking.apart_of_last (p := isSignChar) (fun k hk => ?_) (by decide) h₁ heq
    obtain ⟨c, hlast, hc⟩ := signature_key_last hk
    refine ⟨c, hlast, (isSignChar_iff c).mpr ?_⟩
    rcases hc with hc | rfl
    · exact .inl hc
    · exact .inr (.inl rfl)
  marker_value := .inl fun a ha hhead => by
    obtain ⟨c, a', rfl, hc⟩ := signature_core_head ha
    rw [Option.some.inj hhead] at hc
    exact absurd hc (by decide)

theorem signature_separate : signature.Separate where
  key_unique k v r k' v' r' hk hv hk' hv' heq := by
    obtain ⟨h, s₁, s₂, rfl, hh, hs₁, hs₂⟩ := hk
    obtain ⟨h', s₁', s₂', rfl, hh', hs₁', hs₂'⟩ := hk'
    obtain ⟨a, w, rfl, ha, -, -⟩ := hv
    obtain ⟨a', w', rfl, ha', -, -⟩ := hv'
    obtain ⟨c, a, rfl, hc⟩ := signature_core_head ha
    obtain ⟨c', a', rfl, hc'⟩ := signature_core_head ha'
    simp only [List.append_assoc, List.cons_append] at heq
    obtain ⟨rfl, heq₁⟩ := List.append_inj heq (hh.length.trans hh'.length.symm)
    obtain ⟨rfl, heq₂⟩ := Masking.eq_of_runs hs₁ (space_stops (c := ':') rfl _) hs₁'
      (space_stops (c := ':') rfl _) heq₁
    obtain ⟨rfl, -⟩ := Masking.eq_of_runs hs₂ (space_stops (isSpace_of_caseFold hc rfl) _) hs₂'
      (space_stops (isSpace_of_caseFold hc' rfl) _) (List.cons.inj heq₂).2
    rfl
  inside a b k hk ha _ _ hk' hpre := by
    obtain ⟨h, s₁, s₂, heq, hh, hs₁, hs₂⟩ := hk
    obtain ⟨h', s₁', s₂', rfl, hh', -⟩ := hk'
    obtain ⟨c, h', rfl, hc⟩ := hh'.head rfl
    obtain ⟨t, rfl⟩ := hpre
    -- an X stands only at the beginning of the name
    have hmid : c ∉ s₁ ++ ':' :: s₂ := by
      have hspace := isSpace_of_caseFold hc rfl
      intro hmem
      rcases List.mem_append.mp hmem with hmem | hmem
      · exact absurd ((hs₁ c hmem).symm.trans hspace) (by decide)
      rcases List.mem_cons.mp hmem with rfl | hmem
      · exact absurd hc (by decide)
      · exact absurd ((hs₂ c hmem).symm.trans hspace) (by decide)
    rcases List.append_eq_append_iff.mp heq with ⟨e, rfl, heq₁⟩ | ⟨e, -, heq₁⟩
    · cases e with
      | nil => exact hmid (by rw [← List.nil_append (s₁ ++ _), ← heq₁]; simp)
      | cons x e =>
        rw [(List.cons.inj heq₁).1] at hc
        cases a with
        | nil => exact ha rfl
        | cons y a =>
          have htail : (a ++ x :: e).map caseFold =
              ("X-Hub-Signature-256".toList.map Char.toLower).tail := by
            rw [← show (y :: a ++ x :: e).map caseFold = _ from hh]
            rfl
          have hmem : 'x' ∈ (a ++ x :: e).map caseFold :=
            List.mem_map.mpr ⟨x, by simp, hc⟩
          rw [htail] at hmem
          exact absurd hmem (by decide)
    · exact hmid (by rw [heq₁]; simp)
  after _ _ _ _ _ _ _ _ _ _ := trivial

end Wapsell.Security
