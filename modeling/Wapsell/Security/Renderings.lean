import Wapsell.Security.Passes

/-!
# Which renderings of a configuration hide a secret

A configuration is printed as `KEY=value`, `KEY: value`, a dict or JSON. The
assignment pattern wants the sign right behind the key, and in the last two a
quote stands there: `redact` leaves the value in them, unless it has the form
of a naked key.

The text around the entry is arbitrary but for two things: no pattern
finds anything in it by itself, and white space stands between it and
the entry. So the theorem covers a line of a file as well as an entry in
the middle of a log message.

What this does not establish: what happens to two secrets that stand
side by side. It is about one entry at a time.
-/

namespace Wapsell.Security

open Lib Py

/-- How one entry of a configuration is written. -/
inductive Rendering
  /-- `KEY=value`. -/
  | assign
  /-- `KEY: value`. -/
  | colon
  /-- An entry of the `repr` of a dict. -/
  | repr
  /-- An entry of a JSON object. -/
  | json
  deriving DecidableEq, Repr

/-- The text of an entry. -/
def Rendering.text (r : Rendering) (key value : String) : String :=
  match r with
  | .assign => key ++ "=" ++ value
  | .colon => key ++ ": " ++ value
  | .repr => "'" ++ key ++ "': '" ++ value ++ "'"
  | .json => "\"" ++ key ++ "\": \"" ++ value ++ "\""

/-- An entry of the default families in a text without another secret. Where the entry begins and
ends is made plain by what stands there. -/
structure Surrounded (U : Unicode) (key value pre post : String) : Prop where
  isSecretName : IsSecretName key.toList
  value_ne : value ≠ ""
  value_chars : ∀ c ∈ value.toList, isSpace c = false ∧ c ≠ '\'' ∧ c ≠ '"' ∧ c ≠ ','
  pre_other : ∀ r ∈ DEFAULT_SECRET_PATTERNS, redact U pre [r] = pre
  post_other : ∀ r ∈ DEFAULT_SECRET_PATTERNS, redact U post [r] = post
  pre_blank : ∀ c ∈ pre.toList.getLast?, isSpace c = true
  post_blank : ∀ c ∈ post.toList.head?, isSpace c = true

section

variable {U : Unicode}

/-! ## Keys, values and white space -/

/-- Where an entry ends: with the marker, or with a quote behind it. -/
def IsEnd (x : Char) : Prop := x = '>' ∨ x = '\'' ∨ x = '"'

theorem not_isSpace_of_isValueChar {c : Char} (h : isValueChar c = true) : isSpace c = false :=
  Bool.not_eq_true _ ▸ ((isValueChar_iff c).mp h).1

theorem not_isSpace_of_isLetter {c : Char} (h : isLetter c = true) : isSpace c = false :=
  not_isSpace_of_isValueChar (isValueChar_of_isLetter h)

theorem nakedKey_value_chars {v r : List Char} (hv : (nakedKey U).Value v r) :
    ∀ c ∈ v, isNakedKeyChar c = true := by
  obtain ⟨a, w, rfl, ha, hw, -⟩ := hv
  intro c hc
  rcases List.mem_append.mp hc with hc | hc
  · exact nakedKey_core_chars ha c hc
  · exact hw c hc

/-- A quote in a key is its last character. -/
theorem assignment_quote_last {a b : List Char} {x : Char} (hx : x = '\'' ∨ x = '"')
    (hk : (assignment U).key (a ++ x :: b)) : b = [] := by
  obtain ⟨name, h, heq, hname, s₁, d, s₂, q, rfl, hs₁, hd, hs₂, hq⟩ := hk
  have hbody : x ∉ name ++ (s₁ ++ d :: s₂) := by
    have hquote : isKeyChar x = false ∧ isSpace x = false := by
      rcases hx with rfl | rfl <;> exact ⟨by decide, by decide⟩
    intro hmem
    simp only [List.mem_append, List.mem_cons] at hmem
    rcases hmem with hmem | hmem | hmem | hmem
    · exact absurd ((hname.keyChars x hmem).symm.trans hquote.1) (by decide)
    · exact absurd ((hs₁ x hmem).symm.trans hquote.2) (by decide)
    · rcases hx with rfl | rfl <;> rcases hd with rfl | rfl <;> exact absurd hmem (by decide)
    · exact absurd ((hs₂ x hmem).symm.trans hquote.2) (by decide)
  have heq' : a ++ x :: b = name ++ (s₁ ++ d :: s₂) ++ q := by rw [heq]; simp
  rcases List.append_eq_append_iff.mp heq' with ⟨e, hbody', hrest⟩ | ⟨e, -, hrest⟩
  · cases e with
    | nil =>
      rw [List.nil_append] at hrest
      rcases hq with rfl | rfl | rfl
      · cases hrest
      · exact (List.cons.inj hrest).2
      · exact (List.cons.inj hrest).2
    | cons y e =>
      refine absurd ?_ hbody
      rw [hbody', (List.cons.inj hrest).1]
      simp
  · rcases hq with rfl | rfl | rfl
    · simp at hrest
    · cases e with
      | nil => exact (List.cons.inj hrest).2.symm
      | cons y e => simp at hrest
    · cases e with
      | nil => exact (List.cons.inj hrest).2.symm
      | cons y e => simp at hrest

theorem assignment_spaced : (assignment U).Spaced isSpace IsEnd where
  value _ _ hv c hc := not_isSpace_of_isValueChar (hv.all assignment_runs c hc)
  key_head c k hk := by
    obtain ⟨d, k', heq, hd⟩ := assignment_key_head hk
    rw [(List.cons.inj heq).1]
    exact not_isSpace_of_isLetter hd
  key_stop x hx a b c hk := by
    rcases hx with rfl | hx
    · exact absurd (by simp [marker]) (assignment_lawful.key_last _ hk)
    · cases assignment_quote_last hx hk

theorem authorization_spaced : (authorization U).Spaced isSpace IsEnd where
  value _ _ hv c hc := isSpace_of_isCredentialChar (hv.all (fun _ => Iff.rfl) c hc)
  key_head c k hk := by
    obtain ⟨d, k', heq, hd⟩ := authorization_key_head hk
    rw [(List.cons.inj heq).1]
    exact isSpace_of_caseFold hd rfl
  key_stop x hx a b c hk := by
    rcases authorization_key_chars hk x (by simp) with h | h | h
    · rcases hx with rfl | rfl | rfl <;> exact absurd h (by decide)
    · rcases hx with rfl | rfl | rfl <;> exact absurd h (by decide)
    · rcases hx with rfl | rfl | rfl <;> exact absurd h (by decide)

theorem nakedKey_spaced : (nakedKey U).Spaced isSpace IsEnd where
  value _ _ hv c hc :=
    not_isSpace_of_isValueChar (isValueChar_of_isNakedKeyChar (nakedKey_value_chars hv c hc))
  key_head c k hk := absurd (show c :: k = [] from hk) (List.cons_ne_nil c k)
  key_stop x _ a b c hk := absurd (show a ++ x :: c :: b = [] from hk) (by simp)

theorem signature_spaced : signature.Spaced isSpace IsEnd where
  value v r hv c hc := by
    rw [← Bool.not_eq_true]
    intro hspace
    refine signature_value_not_mem hv (c := c) ?_ ?_ hc
    · rw [(caseFold_eq_iff (isLetter_of_isSpace hspace)).mpr rfl]
      intro hmem
      exact absurd (hspace.symm.trans
        ((by decide : ∀ c ∈ "sha256=".toList, isSpace c = false) c hmem)) (by decide)
    · rw [← Bool.not_eq_true, isHexDigit_iff]
      rw [isSpace_iff] at hspace
      omega
  key_head c k hk := by
    obtain ⟨h, s₁, s₂, heq, hh, -⟩ := hk
    obtain ⟨d, h', rfl, hd⟩ := hh.head (d := 'x') rfl
    rw [(List.cons.inj heq).1]
    exact isSpace_of_caseFold hd rfl
  key_stop x hx a b c hk := by
    rcases signature_key_chars hk x (by simp) with h | h | h
    · rcases hx with rfl | rfl | rfl <;> exact absurd h (by decide)
    · rcases hx with rfl | rfl | rfl <;> exact absurd h (by decide)
    · rcases hx with rfl | rfl | rfl <;> exact absurd h (by decide)

/-! ## Where keys end -/

/-- Behind a symbol no key ends in, no value begins. -/
theorem not_ready_of_last {G : Masking Char} {p : Char → Prop}
    (hlast : ∀ k, G.key k → ∃ c, k.getLast? = some c ∧ p c) {o : List Char} {c : Char}
    (ho : o.getLast? = some c) (hc : ¬ p c) : ¬ G.Ready o := by
  rintro ⟨b, k, rfl, hk, -⟩
  obtain ⟨d, hd, hp⟩ := hlast k hk
  have hne : k ≠ [] := fun hnil => by rw [hnil] at hd; cases hd
  rw [List.getLast?_append_of_ne_nil b hne, hd] at ho
  exact hc (Option.some.inj ho ▸ hp)

theorem not_ready_assignment {o : List Char} {c : Char} (ho : o.getLast? = some c)
    (hc : isSignChar c = false) : ¬ (assignment U).Ready o :=
  not_ready_of_last (fun _ => assignment_key_last) ho (by rw [hc]; decide)

theorem not_ready_authorization {o : List Char} {c : Char} (ho : o.getLast? = some c)
    (hc : isSpace c = false) : ¬ (authorization U).Ready o :=
  not_ready_of_last (fun _ => authorization_key_last) ho (by rw [hc]; decide)

theorem not_ready_signature {o : List Char} {c : Char} (ho : o.getLast? = some c)
    (hc : isSpace c = false) (hcolon : c ≠ ':') : ¬ signature.Ready o :=
  not_ready_of_last (fun _ => signature_key_last) ho (by
    rintro (h | h)
    · exact absurd (hc.symm.trans h) (by decide)
    · exact hcolon h)

/-- The key of an assignment without the quote. -/
def IsBody (k : List Char) : Prop :=
  ∃ name s₁ c s₂, k = name ++ (s₁ ++ c :: s₂) ∧ IsSecretName name ∧ Blank s₁ ∧
    (c = ':' ∨ c = '=') ∧ Blank s₂

theorem assignment_key_iff (k : List Char) : (assignment U).key k ↔
    ∃ body q, k = body ++ q ∧ IsBody body ∧ (q = [] ∨ q = ['\''] ∨ q = ['"']) := by
  constructor
  · rintro ⟨name, h, rfl, hname, s₁, c, s₂, q, rfl, hs₁, hc, hs₂, hq⟩
    exact ⟨name ++ (s₁ ++ c :: s₂), q, by simp, ⟨name, s₁, c, s₂, rfl, hname, hs₁, hc, hs₂⟩, hq⟩
  · rintro ⟨body, q, rfl, ⟨name, s₁, c, s₂, rfl, hname, hs₁, hc, hs₂⟩, hq⟩
    exact ⟨name, s₁ ++ c :: (s₂ ++ q), by simp, hname, s₁, c, s₂, q, rfl, hs₁, hc, hs₂, hq⟩

/-- The last symbol of a body: white space behind the sign, or the sign behind the name. -/
theorem IsBody.last {b k y : List Char} {x : Char} (hk : IsBody k) (heq : b ++ k = y ++ [x]) :
    (isSpace x = true ∧ ∃ k', IsBody k' ∧ y = b ++ k') ∨
      ((x = ':' ∨ x = '=') ∧ ∃ name s, IsSecretName name ∧ Blank s ∧ y = b ++ (name ++ s)) := by
  obtain ⟨name, s₁, c, s₂, rfl, hname, hs₁, hc, hs₂⟩ := hk
  rcases List.eq_nil_or_concat s₂ with rfl | ⟨s₂, d, rfl⟩
  · right
    have heq' : b ++ (name ++ s₁) ++ [c] = y ++ [x] := by simpa using heq
    obtain ⟨rfl, hx⟩ := List.append_inj' heq' rfl
    obtain rfl := (List.cons.inj hx).1
    exact ⟨hc, name, s₁, hname, hs₁, rfl⟩
  · left
    rw [List.concat_eq_append] at *
    have heq' : b ++ (name ++ (s₁ ++ c :: s₂)) ++ [d] = y ++ [x] := by simpa using heq
    obtain ⟨rfl, hx⟩ := List.append_inj' heq' rfl
    obtain rfl := (List.cons.inj hx).1
    exact ⟨hs₂ d (by simp), _, ⟨name, s₁, c, s₂, rfl, hname, hs₁, hc,
      fun e he => hs₂ e (by simp [he])⟩, rfl⟩

/-- A quote behind the sign of an assignment belongs to the key, and no other does. -/
theorem ready_quote_iff {o : List Char} {q : Char} (hq : q = '\'' ∨ q = '"')
    (ho : ∀ c ∈ o.getLast?, c ≠ '\'' ∧ c ≠ '"') :
    (assignment U).Ready (o ++ [q]) ↔ (assignment U).Ready o := by
  constructor
  · rintro ⟨b, k, heq, hk, hopens⟩
    obtain ⟨body, q', rfl, hbody, hq'⟩ := (assignment_key_iff k).mp hk
    have hkey : o = b ++ body := by
      rcases hq' with rfl | hq'
      · exfalso
        rw [List.append_nil] at heq
        rcases hbody.last heq.symm with ⟨h, -⟩ | ⟨h, -⟩
        · rcases hq with rfl | rfl <;> exact absurd h (by decide)
        · rcases hq with rfl | rfl <;> exact absurd h (by decide)
      · obtain ⟨x, rfl⟩ : ∃ x, q' = [x] := by
          rcases hq' with rfl | rfl <;> exact ⟨_, rfl⟩
        rw [← List.append_assoc] at heq
        exact (List.append_inj' heq rfl).1
    exact ⟨b, body, hkey, (assignment_key_iff body).mpr ⟨body, [], by simp, hbody, .inl rfl⟩, hopens⟩
  · rintro ⟨b, k, rfl, hk, hopens⟩
    obtain ⟨body, q', rfl, hbody, hq'⟩ := (assignment_key_iff k).mp hk
    obtain rfl : q' = [] := by
      rcases hq' with rfl | rfl | rfl
      · rfl
      · exact absurd rfl (ho '\'' (by simp)).1
      · exact absurd rfl (ho '"' (by simp)).2
    refine ⟨b, body ++ [q], by simp, (assignment_key_iff _).mpr ⟨body, [q], rfl, hbody, ?_⟩, hopens⟩
    rcases hq with rfl | rfl
    · exact .inr (.inl rfl)
    · exact .inr (.inr rfl)

/-- Between a quoted name and a quoted value stands no sign of an assignment. -/
theorem not_ready_quoted {o : List Char} {q : Char} (hq : q = '\'' ∨ q = '"') :
    ¬ (assignment U).Ready (o ++ [q] ++ [':'] ++ [' '] ++ [q]) := by
  rw [ready_quote_iff hq (by simp)]
  rintro ⟨b, k, heq, hk, -⟩
  obtain ⟨body, q', rfl, hbody, hq'⟩ := (assignment_key_iff k).mp hk
  obtain rfl : q' = [] := by
    rcases hq' with rfl | hq'
    · rfl
    · exfalso
      obtain ⟨x, rfl, hx⟩ : ∃ x, q' = [x] ∧ x ≠ ' ' := by
        rcases hq' with rfl | rfl <;> exact ⟨_, rfl, by decide⟩
      rw [← List.append_assoc] at heq
      exact hx (List.cons.inj (List.append_inj' heq rfl).2).1.symm
  rw [List.append_nil] at heq
  -- from right to left: the space, the colon, and then the quote, which is in no body
  rcases hbody.last heq.symm with ⟨-, body', hbody', heq₁⟩ | ⟨h, -⟩
  · rcases hbody'.last heq₁.symm with ⟨h, -⟩ | ⟨-, name, s, hname, hs, heq₂⟩
    · exact absurd h (by decide)
    · have hquote : isKeyChar q = false ∧ isSpace q = false := by
        rcases hq with rfl | rfl <;> exact ⟨by decide, by decide⟩
      have hne : name ++ s ≠ [] := by
        obtain ⟨c, name', rfl, -⟩ := hname.head
        simp
      have hlast := congrArg List.getLast? heq₂
      rw [List.getLast?_concat, List.getLast?_append_of_ne_nil b hne] at hlast
      rcases List.mem_append.mp (List.mem_of_getLast? hlast.symm) with hmem | hmem
      · exact absurd ((hname.keyChars q hmem).symm.trans hquote.1) (by decide)
      · exact absurd ((hs q hmem).symm.trans hquote.2) (by decide)
  · exact absurd h (by decide)

/-! ## With what no value begins -/

theorem assignment_no_head {c : Char} (hc : isValueChar c = false) (a : List Char)
    (ha : (assignment U).core a) : a.head? ≠ some c := by
  obtain ⟨d, rfl, hd⟩ := ha
  intro h
  rw [Option.some.inj h, hc] at hd
  cases hd

theorem authorization_no_head {c : Char} (hc : isCredentialChar c = false) (a : List Char)
    (ha : (authorization U).core a) : a.head? ≠ some c := by
  obtain ⟨d, rfl, hd⟩ := ha
  intro h
  rw [Option.some.inj h, hc] at hd
  cases hd

theorem nakedKey_no_head {c : Char} (hc : c ≠ 's') (a : List Char) (ha : (nakedKey U).core a) :
    a.head? ≠ some c := by
  rw [nakedKey_core_head ha]
  exact fun h => hc (Option.some.inj h).symm

theorem signature_no_head {c : Char} (hc : caseFold c ≠ 's') (a : List Char)
    (ha : signature.core a) : a.head? ≠ some c := by
  obtain ⟨d, a', rfl, hd⟩ := signature_core_head ha
  intro h
  exact hc (Option.some.inj h ▸ hd)

/-- The symbols between a name and its value with which no value of the later patterns begins. -/
theorem not_isCredentialChar_of_isSpace {c : Char} (h : isSpace c = true) :
    isCredentialChar c = false := by
  rw [← Bool.not_eq_true]
  intro hc
  exact absurd ((isSpace_of_isCredentialChar hc).symm.trans h) (by decide)

theorem ne_s_of_isSpace {c : Char} (h : isSpace c = true) : c ≠ 's' ∧ caseFold c ≠ 's' := by
  refine ⟨?_, fun hc => absurd ((isSpace_of_caseFold hc rfl).symm.trans h) (by decide)⟩
  rintro rfl
  exact absurd h (by decide)

/-! ## Names -/

section Names

variable {o name l : List Char}

theorem IsSecretName.getLast? (hname : IsSecretName name) (o : List Char) :
    ∃ c, (o ++ name).getLast? = some c ∧ isKeyChar c = true := by
  obtain ⟨c, name', rfl, -⟩ := hname.head
  refine ⟨_, ?_, hname.keyChars _ (List.getLast_mem (List.cons_ne_nil c name'))⟩
  rw [List.getLast?_append_of_ne_nil o (List.cons_ne_nil c name'), List.getLast?_eq_some_getLast]

theorem isSignChar_of_isKeyChar {c : Char} (h : isKeyChar c = true) : isSignChar c = false := by
  rw [← Bool.not_eq_true]
  intro hc
  exact absurd ((isKeyChar_of_isSignChar hc).symm.trans h) (by decide)

theorem isSpace_of_isKeyChar {c : Char} (h : isKeyChar c = true) :
    isSpace c = false ∧ c ≠ ':' := by
  have hsign := isSignChar_of_isKeyChar h
  rw [← Bool.not_eq_true, isSignChar_iff, not_or, not_or] at hsign
  exact ⟨Bool.not_eq_true _ ▸ hsign.1, fun hc => hsign.2.1 (by rw [hc]; rfl)⟩

theorem no_assignment_in_name (hname : IsSecretName name) (ho : ¬ (assignment U).Ready o) :
    (assignment U).Quiet o name l :=
  Masking.quiet_of_last (fun _ _ _ hspot => ho hspot.1) fun c hc _ =>
    not_ready_assignment List.getLast?_concat (isSignChar_of_isKeyChar (hname.keyChars c hc))

theorem no_authorization_in_name (hname : IsSecretName name) (ho : ¬ (authorization U).Ready o) :
    (authorization U).Quiet o name l :=
  Masking.quiet_of_last (fun _ _ _ hspot => ho hspot.1) fun c hc _ =>
    not_ready_authorization List.getLast?_concat (isSpace_of_isKeyChar (hname.keyChars c hc)).1

/-- A name has an underscore, and `sha256` has none: no signature begins at a name. -/
theorem no_signature_at_name (hname : IsSecretName name) {v r : List Char}
    (heq : name ++ l = v ++ r) : ¬ signature.Spot o v r := by
  rintro ⟨-, a, w, rfl, ⟨sha, d, rfl, hsha, -⟩, -, -⟩
  have heq' : name ++ l = sha ++ (d :: (w ++ r)) := by rw [heq]; simp
  have hunderscore : '_' ∉ sha := hsha.not_mem (by decide)
  rcases List.append_eq_append_iff.mp heq' with ⟨e, rfl, -⟩ | ⟨e, rfl, -⟩
  · exact hunderscore (List.mem_append_left e hname.underscore)
  · have hkey := hname.keyChars '=' (List.mem_append_left e (hsha.mem (by decide) rfl rfl))
    exact absurd hkey (by decide)

theorem no_signature_in_name (hname : IsSecretName name) : signature.Quiet o name l :=
  Masking.quiet_of_last (fun _ _ heq => no_signature_at_name hname heq) fun c hc _ =>
    not_ready_signature List.getLast?_concat (isSpace_of_isKeyChar (hname.keyChars c hc)).1
      (isSpace_of_isKeyChar (hname.keyChars c hc)).2

end Names

/-! ## Passes over a text with one entry -/

/-- A text in which none of the maskings finds anything. -/
structure Secretless (U : Unicode) (t : List Char) : Prop where
  assignment : (assignment U).Clean marker t
  authorization : (authorization U).Clean marker t
  nakedKey : (nakedKey U).Clean marker t
  signature : signature.Clean marker t

theorem secretless_of_redact (hU : Alphabet U) {s : String}
    (h : ∀ r ∈ DEFAULT_SECRET_PATTERNS, redact U s [r] = s) : Secretless U s.toList := by
  have hpass : ∀ r ∈ DEFAULT_SECRET_PATTERNS, pass U r s.toList = s.toList := by
    intro r hr
    have heq := congrArg String.toList (h r hr)
    rw [toList_redact] at heq
    exact heq
  refine ⟨?_, ?_, ?_, ?_⟩
  · have hm := masks_assignment hU s.toList
    rw [hpass _ (by simp [DEFAULT_SECRET_PATTERNS])] at hm
    exact hm.clean assignment_lawful
  · have hm := masks_authorization hU s.toList
    rw [hpass _ (by simp [DEFAULT_SECRET_PATTERNS])] at hm
    exact hm.clean authorization_lawful
  · have hm := masks_nakedKey (U := U) s.toList
    rw [hpass _ (by simp [DEFAULT_SECRET_PATTERNS])] at hm
    exact hm.clean nakedKey_lawful
  · have hm := masks_signature (U := U) s.toList
    rw [hpass _ (by simp [DEFAULT_SECRET_PATTERNS])] at hm
    exact hm.clean signature_lawful

/-- What stands around an entry. -/
structure Margins (U : Unicode) (before behind : List Char) : Prop where
  secretless : Secretless U before ∧ Secretless U behind
  ends : ∀ c ∈ before.getLast?, isSpace c = true
  begins : ∀ c ∈ behind.head?, isSpace c = true

section Entries

variable {before behind name v : List Char}

/-- `redact` with the default patterns. -/
theorem toList_redact_passes (text : String) : (redact U text).toList =
    pass U signaturePattern (pass U nakedKeyPattern
      (pass U authorizationPattern (pass U assignmentPattern text.toList))) := by
  rw [toList_redact]
  rfl

/-! ### A name with the sign right behind it -/

section Plain

variable {G : Masking Char} {o s l : List Char} {d : Char}

theorem quiet_plain (hG : G.Lawful marker) (hname : G.Quiet o name (d :: (s ++ l)))
    (hsign : ∀ v r, d :: (s ++ l) = v ++ r → ¬ G.Spot (o ++ name) v r)
    (hs : ∀ c ∈ s, ∀ a, G.core a → a.head? ≠ some c) : G.Quiet o (name ++ d :: s) l := by
  refine hname.append ?_
  show G.Quiet (o ++ name) ([d] ++ s) l
  exact (Masking.quiet_singleton hsign).append (Masking.quiet_of_heads hG hs _ _)

theorem assignment_plain (hname : IsSecretName name) (hs : Blank s)
    (ho : ¬ (assignment U).Ready o) : (assignment U).Quiet o (name ++ d :: s) l := by
  refine quiet_plain assignment_lawful (no_assignment_in_name hname ho) (fun _ _ _ hspot => ?_)
    fun c hc => assignment_no_head ?_
  · obtain ⟨c, hlast, hc⟩ := hname.getLast? o
    exact not_ready_assignment hlast (isSignChar_of_isKeyChar hc) hspot.1
  · rw [← Bool.not_eq_true]
    intro hvalue
    exact absurd ((not_isSpace_of_isValueChar hvalue).symm.trans (hs c hc)) (by decide)

theorem authorization_plain (hname : IsSecretName name) (hs : Blank s)
    (ho : ¬ (authorization U).Ready o) : (authorization U).Quiet o (name ++ d :: s) l := by
  refine quiet_plain authorization_lawful (no_authorization_in_name hname ho) (fun _ _ _ hspot => ?_)
    fun c hc => authorization_no_head (not_isCredentialChar_of_isSpace (hs c hc))
  obtain ⟨c, hlast, hc⟩ := hname.getLast? o
  exact not_ready_authorization hlast (isSpace_of_isKeyChar hc).1 hspot.1

theorem nakedKey_plain (hU : Alphabet U) (hname : IsSecretName name) (hd : d = ':' ∨ d = '=')
    (hs : Blank s) : (nakedKey U).Quiet o (name ++ d :: s) l := by
  refine (no_nakedKey_in_name hU hname _ _).append (Masking.quiet_of_heads nakedKey_lawful ?_ _ _)
  intro c hc
  refine nakedKey_no_head ?_
  rcases List.mem_cons.mp hc with rfl | hc
  · rcases hd with rfl | rfl <;> decide
  · exact (ne_s_of_isSpace (hs c hc)).1

theorem signature_plain (hname : IsSecretName name) (hd : d = ':' ∨ d = '=') (hs : Blank s) :
    signature.Quiet o (name ++ d :: s) l := by
  refine (no_signature_in_name hname).append (Masking.quiet_of_heads signature_lawful ?_ _ _)
  intro c hc
  refine signature_no_head ?_
  rcases List.mem_cons.mp hc with rfl | hc
  · rcases hd with rfl | rfl <;> decide
  · exact (ne_s_of_isSpace (hs c hc)).2

end Plain

/-! ### A name and a value in quotes -/

section Quoted

variable {G : Masking Char} {o l : List Char} {q : Char}

/-- What stands before the value. -/
def quoted (q : Char) (name : List Char) : List Char := q :: (name ++ [q, ':', ' ', q])

example : quoted '"' "API_KEY".toList = "\"API_KEY\": \"".toList := by decide +kernel

theorem quiet_quoted (hG : G.Lawful marker) (hq : ∀ a, G.core a → a.head? ≠ some q)
    (hspace : ∀ a, G.core a → a.head? ≠ some ' ')
    (hname : G.Quiet (o ++ [q]) name (q :: ':' :: ' ' :: q :: l))
    (hcolon : ∀ v r, ':' :: ' ' :: q :: l = v ++ r → ¬ G.Spot (o ++ [q] ++ name ++ [q]) v r) :
    G.Quiet o (quoted q name) l := by
  have hheads : ∀ c ∈ [' ', q], ∀ a, G.core a → a.head? ≠ some c := by
    intro c hc
    rcases List.mem_cons.mp hc with rfl | hc
    · exact hspace
    · rw [List.mem_singleton.mp hc]
      exact hq
  have hone : ∀ c ∈ [q], ∀ a, G.core a → a.head? ≠ some c := fun c hc => by
    rw [List.mem_singleton.mp hc]
    exact hq
  show G.Quiet o ([q] ++ (name ++ ([q] ++ ([':'] ++ [' ', q])))) l
  have htail := (Masking.quiet_singleton hcolon).append (Masking.quiet_of_heads hG hheads _ _)
  exact (Masking.quiet_of_heads hG hone _ _).append
    (hname.append ((Masking.quiet_of_heads hG hone _ _).append htail))

theorem quote_no_head (hq : q = '\'' ∨ q = '"') : isValueChar q = false ∧
    isCredentialChar q = false ∧ q ≠ 's' ∧ caseFold q ≠ 's' ∧ isSpace q = false ∧ q ≠ ':' := by
  rcases hq with rfl | rfl <;> decide

theorem assignment_quoted (hname : IsSecretName name) (hq : q = '\'' ∨ q = '"')
    (hblank : ∀ c ∈ o.getLast?, isSpace c = true) (ho : ¬ (assignment U).Ready o) :
    (assignment U).Quiet o (quoted q name) l := by
  refine quiet_quoted assignment_lawful (assignment_no_head (quote_no_head hq).1)
    (assignment_no_head (by decide)) (no_assignment_in_name hname ?_) fun _ _ _ hspot => ?_
  · rwa [ready_quote_iff hq fun c hc => ?_]
    have hspace := hblank c hc
    constructor <;> rintro rfl <;> exact absurd hspace (by decide)
  · obtain ⟨c, hlast, hc⟩ := hname.getLast? (o ++ [q])
    refine not_ready_assignment hlast (isSignChar_of_isKeyChar hc) ((ready_quote_iff hq ?_).mp hspot.1)
    intro e he
    rw [hlast] at he
    rw [← Option.some.inj he]
    constructor <;> rintro rfl <;> exact absurd hc (by decide)

theorem authorization_quoted (hname : IsSecretName name) (hq : q = '\'' ∨ q = '"') :
    (authorization U).Quiet o (quoted q name) l := by
  obtain ⟨-, hcred, -, -, hspace, -⟩ := quote_no_head hq
  exact quiet_quoted authorization_lawful (authorization_no_head hcred)
    (authorization_no_head (by decide))
    (no_authorization_in_name hname (not_ready_authorization List.getLast?_concat hspace))
    fun _ _ _ hspot => not_ready_authorization List.getLast?_concat hspace hspot.1

theorem nakedKey_quoted (hU : Alphabet U) (hname : IsSecretName name) (hq : q = '\'' ∨ q = '"') :
    (nakedKey U).Quiet o (quoted q name) l := by
  obtain ⟨-, -, hs, -⟩ := quote_no_head hq
  exact quiet_quoted nakedKey_lawful (nakedKey_no_head hs) (nakedKey_no_head (by decide))
    (no_nakedKey_in_name hU hname _ _)
    fun _ _ => Masking.not_spot_of_head nakedKey_lawful (nakedKey_no_head (by decide))

theorem signature_quoted (hname : IsSecretName name) (hq : q = '\'' ∨ q = '"') :
    signature.Quiet o (quoted q name) l := by
  obtain ⟨-, -, -, hs, hspace, hcolon⟩ := quote_no_head hq
  exact quiet_quoted signature_lawful (signature_no_head hs) (signature_no_head (by decide))
    (no_signature_in_name hname)
    fun _ _ _ hspot => not_ready_signature List.getLast?_concat hspace hcolon hspot.1

end Quoted

/-! ### Behind a key of the text before -/

section Behind

variable {G : Masking Char} {m l y : List Char}

/-- The marker's first symbol stays where it is. -/
theorem bracket_stays (hG : G.Lawful marker) (hspaced : G.Spaced isSpace IsEnd)
    (hno : ∀ a, G.core a → a.head? ≠ some '<') (hclean : G.Clean marker before)
    (hend : ∀ c ∈ before.getLast?, isSpace c = true) (hquiet : ∀ l, G.Quiet before m l)
    (h : G.Masks marker [] (before ++ (m ++ '<' :: l)) y) :
    ∃ l', y = before ++ (m ++ '<' :: l') := by
  have hbracket : G.Quiet before (m ++ ['<']) l :=
    (hquiet _).append (Masking.quiet_singleton fun _ _ => Masking.not_spot_of_head hG hno)
  obtain ⟨l', rfl, -⟩ := Masking.Masks.past_quiet hspaced hclean hend hbracket (by simpa using h)
  exact ⟨l', by simp⟩

theorem bracket_stays_behind (hm : Margins U before behind)
    (h₃ : ∀ l, (nakedKey U).Quiet before m l) (h₄ : ∀ l, signature.Quiet before m l)
    (l : List Char) : ∃ l', pass U signaturePattern (pass U nakedKeyPattern
      (before ++ (m ++ '<' :: l))) = before ++ (m ++ '<' :: l') := by
  obtain ⟨l₃, hl₃⟩ := bracket_stays nakedKey_lawful nakedKey_spaced (nakedKey_no_head (by decide))
    hm.secretless.1.nakedKey hm.ends h₃ (masks_nakedKey (before ++ (m ++ '<' :: l)))
  rw [hl₃]
  exact bracket_stays signature_lawful signature_spaced (signature_no_head (by decide))
    hm.secretless.1.signature hm.ends h₄ (masks_signature (U := U) _)

/-- A name right behind a key of the text before is masked as a value. -/
theorem name_masked (hG : G.Lawful marker) (hspaced : G.Spaced isSpace IsEnd) (hruns : G.Runs)
    (hletter : ∀ c, isLetter c = true → G.more c = true) (hname : IsSecretName name)
    (hclean : G.Clean marker before) (hend : ∀ c ∈ before.getLast?, isSpace c = true)
    (hquiet : ∀ l, G.Quiet before m l) (hready : G.Ready (before ++ m))
    (h : G.Masks marker [] (before ++ (m ++ (name ++ l))) y) :
    ∃ l', y = before ++ (m ++ '<' :: l') := by
  obtain ⟨y', rfl, hm⟩ := Masking.Masks.past_quiet hspaced hclean hend (hquiet _) h
  obtain ⟨c, name', rfl, hc⟩ := hname.head
  obtain ⟨w, r, heq, hvalue⟩ :=
    Masking.exists_value ((hruns [c]).mpr ⟨c, rfl, hletter c hc⟩) (name' ++ l)
  have hrest : c :: name' ++ l = ([c] ++ w) ++ r := by
    rw [List.cons_append, heq]
    simp
  rw [hrest] at hm
  obtain ⟨y'', rfl, -⟩ := hm.at_value hG ⟨hready, hvalue⟩
  exact ⟨"redacted".toList ++ ['>'] ++ y'', rfl⟩

theorem bracket_ne_name (hname : IsSecretName name) : '<' :: m ≠ name ++ l := by
  intro heq
  obtain ⟨c, name', rfl, hc⟩ := hname.head
  rw [← (List.cons.inj heq).1] at hc
  exact absurd hc (by decide)

end Behind

/-! ### What `redact` does to an entry -/

/-- An entry with the sign right behind the name keeps its name only where the text before ends in no
key. -/
theorem plain_not_ready (hU : Alphabet U) (hname : IsSecretName name) {d : Char} {s : List Char}
    (hs : Blank s) (hm : Margins U before behind)
    (heq : pass U signaturePattern (pass U nakedKeyPattern (pass U authorizationPattern
      (pass U assignmentPattern (before ++ ((name ++ d :: s) ++ (v ++ behind)))))) =
        before ++ ((name ++ d :: s) ++ (marker.text ++ behind))) :
    ¬ (assignment U).Ready before ∧ ¬ (authorization U).Ready before := by
  have hnil : ∀ (G : Masking Char), G.Lawful marker → ∀ l, G.Quiet before [] l := fun G hG l =>
    Masking.quiet_of_heads hG (fun c hc => absurd hc List.not_mem_nil) before l
  have hready : ¬ (assignment U).Ready before := by
    intro hready
    obtain ⟨l₁, hl₁⟩ := name_masked (m := []) (l := d :: s ++ (v ++ behind))
      (y := pass U assignmentPattern (before ++ ((name ++ d :: s) ++ (v ++ behind))))
      assignment_lawful assignment_spaced assignment_runs (fun _ => isValueChar_of_isLetter) hname
      hm.secretless.1.assignment hm.ends (hnil _ assignment_lawful) (by rwa [List.append_nil])
      (by simpa using masks_assignment hU (before ++ ((name ++ d :: s) ++ (v ++ behind))))
    obtain ⟨l₂, hl₂⟩ := bracket_stays authorization_lawful authorization_spaced
      (authorization_no_head (by decide)) hm.secretless.1.authorization hm.ends
      (hnil _ authorization_lawful) (masks_authorization hU (before ++ ([] ++ '<' :: l₁)))
    obtain ⟨l₄, hl₄⟩ := bracket_stays_behind hm (hnil _ nakedKey_lawful)
      (hnil _ signature_lawful) l₂
    rw [hl₁, hl₂, hl₄] at heq
    exact bracket_ne_name hname (m := l₄) (l := d :: s ++ (marker.text ++ behind))
      (by simpa using heq)
  refine ⟨hready, fun hready₂ => ?_⟩
  obtain ⟨l₁, hl₁, -⟩ := Masking.Masks.past_quiet assignment_spaced hm.secretless.1.assignment
    hm.ends (assignment_plain hname hs hready) (masks_assignment hU _)
  rw [hl₁] at heq
  obtain ⟨l₂, hl₂⟩ := name_masked (m := []) (l := d :: s ++ l₁)
    (y := pass U authorizationPattern (before ++ ((name ++ d :: s) ++ l₁)))
    authorization_lawful authorization_spaced (fun _ => Iff.rfl)
    (fun _ => isCredentialChar_of_isLetter) hname
    hm.secretless.1.authorization hm.ends (hnil _ authorization_lawful)
    (by rwa [List.append_nil])
    (by simpa using masks_authorization hU (before ++ ((name ++ d :: s) ++ l₁)))
  obtain ⟨l₄, hl₄⟩ := bracket_stays_behind hm (hnil _ nakedKey_lawful)
    (hnil _ signature_lawful) l₂
  rw [hl₂, hl₄] at heq
  exact bracket_ne_name hname (m := l₄) (l := d :: s ++ (marker.text ++ behind))
    (by simpa using heq)

/-- Behind a text that ends in no key, its value is masked, and nothing else is. -/
theorem plain_masked (hU : Alphabet U) (hname : IsSecretName name) {d : Char} {s : List Char}
    (hd : d = ':' ∨ d = '=') (hs : Blank s) (hne : v ≠ []) (hv : ∀ c ∈ v, isValueChar c = true)
    (hm : Margins U before behind) (hready : ¬ (assignment U).Ready before)
    (hready₂ : ¬ (authorization U).Ready before) :
    pass U signaturePattern (pass U nakedKeyPattern (pass U authorizationPattern
      (pass U assignmentPattern (before ++ ((name ++ d :: s) ++ (v ++ behind)))))) =
        before ++ ((name ++ d :: s) ++ (marker.text ++ behind)) := by
  have hvalue : ∀ c ∈ behind.head?, isValueChar c = false := by
    intro c hc
    rw [← Bool.not_eq_true]
    intro h
    exact absurd ((not_isSpace_of_isValueChar h).symm.trans (hm.begins c hc)) (by decide)
  have hlast : ∀ hd : List Char, (before ++ (hd ++ marker.text)).getLast? = some '>' := by
    intro hd
    rw [← List.append_assoc, List.getLast?_append_of_ne_nil _ marker.text_ne_nil]
    rfl
  -- the first pattern finds the value
  obtain ⟨l₁, hl₁, hm₁⟩ := Masking.Masks.past_quiet assignment_spaced hm.secretless.1.assignment
    hm.ends (assignment_plain hname hs hready)
    (masks_assignment hU (before ++ ((name ++ d :: s) ++ (v ++ behind))))
  have hspot : (assignment U).Spot (before ++ (name ++ d :: s)) v behind := by
    refine ⟨⟨before, _, rfl, ⟨name, d :: s, rfl, hname, [], d, s, [], by simp,
      fun c hc => absurd hc List.not_mem_nil, hd, hs, .inl rfl⟩, ?_⟩,
      (value_of_runs assignment_runs hvalue).mp ⟨hv, hne⟩⟩
    show before.getLast?.any (isWord U) = false
    rw [Option.any_eq_false]
    exact fun c hc => by rw [isWord_of_isSpace hU (hm.ends c hc)]
  obtain ⟨l₂, rfl, hm₂⟩ := hm₁.at_value assignment_lawful hspot
  have hrest : l₂ = behind := Masking.Masks.rest_clean assignment_lawful assignment_spaced
    (x := '>') (.inl rfl) (o := before ++ (name ++ d :: s) ++ marker.text) (p := [])
    (by rw [List.append_assoc]; exact hlast _) (by rwa [List.append_nil])
    hm.secretless.2.assignment hm.begins
  -- and the others find nothing
  have hkeep : ∀ (G : Masking Char), G.Lawful marker → G.Spaced isSpace IsEnd →
      G.Clean marker before → G.Clean marker behind → (∀ a, G.core a → a.head? ≠ some '<') →
      (∀ l, G.Quiet before (name ++ d :: s) l) → ∀ y,
      G.Masks marker [] (before ++ ((name ++ d :: s) ++ (marker.text ++ behind))) y →
        y = before ++ ((name ++ d :: s) ++ (marker.text ++ behind)) := by
    intro G hG hspaced hbefore hbehind hno hquiet y hy
    rw [← List.append_assoc (name ++ d :: s)] at hy ⊢
    exact hy.keeps hG hspaced (.inl rfl) (hlast _) hbefore hbehind hm.ends hm.begins
      ((hquiet _).append (Masking.quiet_marker hG fun _ _ => Masking.not_spot_of_head hG hno))
  rw [hl₁, hrest]
  rw [hkeep _ authorization_lawful authorization_spaced hm.secretless.1.authorization
    hm.secretless.2.authorization (authorization_no_head (by decide))
    (fun _ => authorization_plain hname hs hready₂) _ (masks_authorization hU _)]
  rw [hkeep _ nakedKey_lawful nakedKey_spaced hm.secretless.1.nakedKey
    hm.secretless.2.nakedKey (nakedKey_no_head (by decide))
    (fun _ => nakedKey_plain hU hname hd hs) _ (masks_nakedKey _)]
  exact hkeep _ signature_lawful signature_spaced hm.secretless.1.signature
    hm.secretless.2.signature (signature_no_head (by decide))
    (fun _ => signature_plain hname hd hs) _ (masks_signature _)

/-- **An entry with the sign right behind the name.** The value is masked, and nothing else is,
unless the text before ends in a key.

A key in front of the name would take the name for its own value. -/
theorem plain_iff (hU : Alphabet U) (hname : IsSecretName name) {d : Char} {s : List Char}
    (hd : d = ':' ∨ d = '=') (hs : Blank s) (hne : v ≠ []) (hv : ∀ c ∈ v, isValueChar c = true)
    (hm : Margins U before behind) :
    pass U signaturePattern (pass U nakedKeyPattern (pass U authorizationPattern
      (pass U assignmentPattern (before ++ ((name ++ d :: s) ++ (v ++ behind)))))) =
        before ++ ((name ++ d :: s) ++ (marker.text ++ behind)) ↔
      ¬ (assignment U).Ready before ∧ ¬ (authorization U).Ready before :=
  ⟨plain_not_ready hU hname hs hm,
    fun h => plain_masked hU hname hd hs hne hv hm h.1 h.2⟩

section InQuotes

variable {q : Char}

theorem getLast?_quoted (o : List Char) (q : Char) (name : List Char) :
    (o ++ quoted q name).getLast? = some q := by
  simp [quoted, List.getLast?_cons]

theorem assignment_not_ready_quoted (hq : q = '\'' ∨ q = '"') (o name : List Char) :
    ¬ (assignment U).Ready (o ++ quoted q name) := by
  have h := not_ready_quoted (U := U) (o := o ++ [q] ++ name) hq
  simpa [quoted] using h

/-- A pass that finds nothing in the value leaves the whole entry as it is. -/
theorem quoted_kept {G : Masking Char} {y : List Char} (hG : G.Lawful marker)
    (hspaced : G.Spaced isSpace IsEnd) (hq : q = '\'' ∨ q = '"')
    (hclean : G.Clean marker before ∧ G.Clean marker behind) (hm : Margins U before behind)
    (hno : ∀ a, G.core a → a.head? ≠ some q) (hquiet : ∀ l, G.Quiet before (quoted q name) l)
    (hv : G.Quiet (before ++ quoted q name) v (q :: behind))
    (h : G.Masks marker [] (before ++ (quoted q name ++ (v ++ q :: behind))) y) :
    y = before ++ (quoted q name ++ (v ++ q :: behind)) := by
  have hlast : (before ++ (quoted q name ++ (v ++ [q]))).getLast? = some q := by
    simp [← List.append_assoc]
  have hshape : quoted q name ++ (v ++ q :: behind) = (quoted q name ++ (v ++ [q])) ++ behind := by
    simp
  have hone : G.Quiet (before ++ quoted q name ++ v) [q] behind :=
    Masking.quiet_singleton fun _ _ => Masking.not_spot_of_head hG hno
  rw [hshape] at h ⊢
  exact h.keeps hG hspaced (.inr hq) hlast hclean.1 hclean.2 hm.ends hm.begins
    ((hquiet _).append (hv.append hone))

/-- What stands in front of a quote in the output, if a masking copied it, stood in front of the
quote in the text. -/
theorem eq_of_quote {w l m : List Char} (hw : q ∉ w) (hv : q ∉ v)
    (h : v ++ q :: l = w ++ q :: m) : v = w := by
  have hrun : ∀ u : List Char, q ∉ u → ∀ c ∈ u, decide (c ≠ q) = true := by
    intro u hu c hc
    rw [decide_eq_true_eq]
    rintro rfl
    exact hu hc
  exact (Masking.eq_of_runs (hrun v hv) (by simp) (hrun w hw) (by simp) h).1

/-- A marker in front of a quote that was copied. -/
theorem copied_quoted_marker {G : Masking Char} {o l y : List Char} (hq : q = '\'' ∨ q = '"')
    (hready : ¬ G.Ready o) (h : G.Masks marker o l (marker.text ++ q :: y)) :
    ∃ m, l = marker.text ++ q :: m := by
  obtain ⟨m, rfl, hm⟩ := h.copied_marker hready
  obtain ⟨m', rfl, -⟩ := hm.copied (by rcases hq with rfl | rfl <;> decide)
  exact ⟨m', rfl⟩

/-- An entry in quotes keeps its name only where the text before ends in no key. -/
theorem quoted_not_ready (hU : Alphabet U) (hname : IsSecretName name) (hq : q = '\'' ∨ q = '"')
    (hm : Margins U before behind)
    (heq : pass U signaturePattern (pass U nakedKeyPattern (pass U authorizationPattern
      (pass U assignmentPattern (before ++ (quoted q name ++ (v ++ q :: behind)))))) =
        before ++ (quoted q name ++ (marker.text ++ q :: behind))) :
    ¬ (assignment U).Ready before := by
  obtain ⟨hvalue, hcred, hs, hfold, -, -⟩ := quote_no_head hq
  intro hready
  have hone : ∀ (G : Masking Char), G.Lawful marker → (∀ a, G.core a → a.head? ≠ some q) →
      ∀ l, G.Quiet before [q] l := fun G hG hno l =>
    Masking.quiet_singleton fun _ _ => Masking.not_spot_of_head hG hno
  have hready' : (assignment U).Ready (before ++ [q]) := by
    refine (ready_quote_iff hq fun c hc => ?_).mpr hready
    have hblank := hm.ends c hc
    constructor <;> rintro rfl <;> exact absurd hblank (by decide)
  obtain ⟨l₁, hl₁⟩ := name_masked (m := [q]) (l := [q, ':', ' ', q] ++ (v ++ q :: behind))
    (y := pass U assignmentPattern (before ++ (quoted q name ++ (v ++ q :: behind))))
    assignment_lawful assignment_spaced assignment_runs (fun _ => isValueChar_of_isLetter) hname
    hm.secretless.1.assignment hm.ends (hone _ assignment_lawful (assignment_no_head hvalue))
    hready' (by simpa [quoted] using
      masks_assignment hU (before ++ (quoted q name ++ (v ++ q :: behind))))
  obtain ⟨l₂, hl₂⟩ := bracket_stays authorization_lawful authorization_spaced
    (authorization_no_head (by decide)) hm.secretless.1.authorization hm.ends
    (hone _ authorization_lawful (authorization_no_head hcred))
    (masks_authorization hU (before ++ ([q] ++ '<' :: l₁)))
  obtain ⟨l₄, hl₄⟩ := bracket_stays_behind hm
    (hone _ nakedKey_lawful (nakedKey_no_head hs))
    (hone _ signature_lawful (signature_no_head hfold)) l₂
  rw [hl₁, hl₂, hl₄] at heq
  exact bracket_ne_name hname (m := l₄) (l := [q, ':', ' ', q] ++ (marker.text ++ q :: behind))
    (by simpa [quoted] using heq)

/-- A marker in the place of the value was the value, or the pass over naked keys put it there. -/
theorem quoted_source (hU : Alphabet U) (hname : IsSecretName name) (hq : q = '\'' ∨ q = '"')
    (hv : q ∉ v) (hm : Margins U before behind) (hready : ¬ (assignment U).Ready before)
    (heq : pass U signaturePattern (pass U nakedKeyPattern (pass U authorizationPattern
      (pass U assignmentPattern (before ++ (quoted q name ++ (v ++ q :: behind)))))) =
        before ++ (quoted q name ++ (marker.text ++ q :: behind))) :
    v = marker.text ∨ IsNakedKey U v := by
  obtain ⟨-, -, -, -, hspace, hcolon⟩ := quote_no_head hq
  have hmarker : q ∉ marker.text := by rcases hq with rfl | rfl <;> decide
  have hready₂ : ¬ (authorization U).Ready (before ++ quoted q name) :=
    not_ready_authorization (getLast?_quoted _ _ _) hspace
  have hready₄ : ¬ signature.Ready (before ++ quoted q name) :=
    not_ready_signature (getLast?_quoted _ _ _) hspace hcolon
  -- what each pass leaves behind the quote in front of the value
  obtain ⟨l₁, hl₁, hm₁⟩ := Masking.Masks.past_quiet assignment_spaced hm.secretless.1.assignment
    hm.ends (assignment_quoted hname hq hm.ends hready) (masks_assignment hU _)
  rw [hl₁] at heq
  obtain ⟨l₂, hl₂, hm₂⟩ := Masking.Masks.past_quiet authorization_spaced
    hm.secretless.1.authorization hm.ends (authorization_quoted hname hq)
    (masks_authorization hU _)
  rw [hl₂] at heq
  obtain ⟨l₃, hl₃, hm₃⟩ := Masking.Masks.past_quiet nakedKey_spaced hm.secretless.1.nakedKey
    hm.ends (nakedKey_quoted hU hname hq) (masks_nakedKey _)
  rw [hl₃] at heq
  obtain ⟨l₄, hl₄, hm₄⟩ := Masking.Masks.past_quiet signature_spaced hm.secretless.1.signature
    hm.ends (signature_quoted hname hq) (masks_signature (U := U) _)
  rw [hl₄, List.append_cancel_left_eq, List.append_cancel_left_eq] at heq
  rw [heq] at hm₄
  -- and where the marker comes from
  have hready₁ := assignment_not_ready_quoted (U := U) hq before name
  obtain ⟨m₃, rfl⟩ := copied_quoted_marker hq hready₄ hm₄
  rcases hm₃.marker_back with ⟨m₂, rfl, hrest⟩ | ⟨n, r, rfl, hspot, hrest⟩
  · obtain ⟨m₂', rfl, -⟩ := hrest.copied (by rcases hq with rfl | rfl <;> decide)
    obtain ⟨m₁, rfl⟩ := copied_quoted_marker hq hready₂ hm₂
    obtain ⟨m₀, heq₀⟩ := copied_quoted_marker hq hready₁ hm₁
    exact .inl (eq_of_quote hmarker hv heq₀)
  · obtain ⟨r', rfl, -⟩ := hrest.copied (by rcases hq with rfl | rfl <;> decide)
    have hchars := nakedKey_value_chars hspot.2
    have hbracket : marker.first ∉ n ++ [q] := by
      intro hmem
      rcases List.mem_append.mp hmem with hmem | hmem
      · exact absurd (hchars _ hmem) (by decide)
      · have hne : '<' ≠ q := by rcases hq with rfl | rfl <;> decide
        exact hne (List.mem_singleton.mp hmem)
    have hquote : q ∉ n := by
      intro hmem
      have hno : isNakedKeyChar q = false := by rcases hq with rfl | rfl <;> decide
      exact absurd ((hchars q hmem).symm.trans hno) (by decide)
    rw [List.append_cons] at hm₂
    obtain ⟨m₁, rfl, -⟩ := hm₂.copied_append hbracket
    obtain ⟨m₀, heq₀, -⟩ := hm₁.copied_append hbracket
    have hvn : v = n := eq_of_quote hquote hv (by simpa using heq₀)
    obtain ⟨a, w, hn, ha, hw, -⟩ := hspot.2
    exact .inr ⟨a, w, hvn.trans hn, ha, hw, fun c hc => by cases hc⟩

/-- No character of a value that is hidden is of a sign. -/
theorem isSignChar_hidden (hhidden : v = marker.text ∨ IsNakedKey U v) :
    ∀ c ∈ v, isSignChar c = false ∧ isSpace c = false := by
  have hsign : ∀ c, isSignChar c = false → isSpace c = false := by
    intro c hc
    rw [← Bool.not_eq_true] at hc ⊢
    exact fun hspace => hc ((isSignChar_iff c).mpr (.inl hspace))
  rcases hhidden with rfl | hnaked
  · exact fun c hc => ⟨(by decide : ∀ c ∈ marker.text, isSignChar c = false) c hc,
      hsign c ((by decide : ∀ c ∈ marker.text, isSignChar c = false) c hc)⟩
  · intro c hc
    have hno : isSignChar c = false := by
      have hnaked := nakedKey_value_chars hnaked c hc
      rw [isNakedKeyChar_iff] at hnaked
      rw [← Bool.not_eq_true, isSignChar_iff, isSpace_iff]
      omega
    exact ⟨hno, hsign c hno⟩

/-- The pass over naked keys leaves the marker in the place of the value. -/
theorem nakedKey_masks_quoted (hU : Alphabet U) (hname : IsSecretName name)
    (hq : q = '\'' ∨ q = '"') (hm : Margins U before behind)
    (hhidden : v = marker.text ∨ IsNakedKey U v) :
    pass U nakedKeyPattern (before ++ (quoted q name ++ (v ++ q :: behind))) =
      before ++ (quoted q name ++ (marker.text ++ q :: behind)) := by
  obtain ⟨-, -, hs, -, -, -⟩ := quote_no_head hq
  rcases hhidden with rfl | hnaked
  · exact quoted_kept nakedKey_lawful nakedKey_spaced hq
      ⟨hm.secretless.1.nakedKey, hm.secretless.2.nakedKey⟩ hm (nakedKey_no_head hs)
      (fun _ => nakedKey_quoted hU hname hq)
      (Masking.quiet_of_heads nakedKey_lawful (fun c hc => nakedKey_no_head
        ((by decide : ∀ c ∈ marker.text, c ≠ 's') c hc)) _ _) (masks_nakedKey _)
  · obtain ⟨l₁, hl₁, hm₁⟩ := Masking.Masks.past_quiet nakedKey_spaced
      hm.secretless.1.nakedKey hm.ends (nakedKey_quoted hU hname hq)
      (masks_nakedKey (before ++ (quoted q name ++ (v ++ q :: behind))))
    have hspot : (nakedKey U).Spot (before ++ quoted q name) v (q :: behind) := by
      obtain ⟨a, w, hn, ha, hw, -⟩ := hnaked
      refine ⟨⟨before ++ quoted q name, [], by simp, rfl, ?_⟩, a, w, hn, ha, hw, fun c hc => ?_⟩
      · show (before ++ quoted q name).getLast?.any (isWord U) = false
        rw [getLast?_quoted]
        rcases hq with rfl | rfl <;> rfl
      · cases hc
        show isNakedKeyChar q = false
        rcases hq with rfl | rfl <;> decide
    obtain ⟨l₂, rfl, hm₂⟩ := hm₁.at_value nakedKey_lawful hspot
    obtain ⟨l₃, rfl, hm₃⟩ := hm₂.forward (k := [q]) (l := behind)
      (Masking.quiet_of_heads nakedKey_lawful (fun c hc => nakedKey_no_head
        (by rwa [List.mem_singleton.mp hc])) _ _)
    have hrest : l₃ = behind := Masking.Masks.rest_clean nakedKey_lawful nakedKey_spaced
      (x := q) (.inr hq) (o := before ++ quoted q name ++ marker.text ++ [q]) (p := [])
      (by simp) (by rwa [List.append_nil]) hm.secretless.2.nakedKey hm.begins
    rw [hl₁, hrest]
    rfl

/-- Behind a text that ends in no key, a hidden value is masked, and nothing else is. -/
theorem quoted_masked (hU : Alphabet U) (hname : IsSecretName name) (hq : q = '\'' ∨ q = '"')
    (hm : Margins U before behind) (hready : ¬ (assignment U).Ready before)
    (hhidden : v = marker.text ∨ IsNakedKey U v) :
    pass U signaturePattern (pass U nakedKeyPattern (pass U authorizationPattern
      (pass U assignmentPattern (before ++ (quoted q name ++ (v ++ q :: behind)))))) =
        before ++ (quoted q name ++ (marker.text ++ q :: behind)) := by
  obtain ⟨hvalue, hcred, -, hfold, hspace, -⟩ := quote_no_head hq
  have hready₂ : ¬ (authorization U).Ready (before ++ quoted q name) :=
    not_ready_authorization (getLast?_quoted _ _ _) hspace
  have hchars := isSignChar_hidden hhidden
  rw [quoted_kept assignment_lawful assignment_spaced hq
    ⟨hm.secretless.1.assignment, hm.secretless.2.assignment⟩ hm (assignment_no_head hvalue)
    (fun _ => assignment_quoted hname hq hm.ends hready)
    (Masking.quiet_of_last (fun _ _ _ hspot => assignment_not_ready_quoted hq before name hspot.1)
      fun c hc _ => not_ready_assignment List.getLast?_concat (hchars c hc).1)
    (masks_assignment hU _)]
  rw [quoted_kept authorization_lawful authorization_spaced hq
    ⟨hm.secretless.1.authorization, hm.secretless.2.authorization⟩ hm
    (authorization_no_head hcred) (fun _ => authorization_quoted hname hq)
    (Masking.quiet_of_last (fun _ _ _ hspot => hready₂ hspot.1)
      fun c hc _ => not_ready_authorization List.getLast?_concat (hchars c hc).2)
    (masks_authorization hU _)]
  rw [nakedKey_masks_quoted hU hname hq hm hhidden]
  exact quoted_kept signature_lawful signature_spaced hq
    ⟨hm.secretless.1.signature, hm.secretless.2.signature⟩ hm (signature_no_head hfold)
    (fun _ => signature_quoted hname hq)
    (Masking.quiet_of_heads signature_lawful (fun c hc => signature_no_head
      ((by decide : ∀ c ∈ marker.text, caseFold c ≠ 's') c hc)) _ _) (masks_signature _)

/-- **An entry in quotes.** The value is masked, and nothing else is, exactly when it is a naked
key, or the marker already, and the text before does not end in a key.

The assignment pattern wants its sign behind the name and finds the quote, so it leaves the entry to
the pattern of the naked keys, which asks for no name. -/
theorem quoted_iff (hU : Alphabet U) (hname : IsSecretName name) (hq : q = '\'' ∨ q = '"')
    (hv : q ∉ v) (hm : Margins U before behind) :
    pass U signaturePattern (pass U nakedKeyPattern (pass U authorizationPattern
      (pass U assignmentPattern (before ++ (quoted q name ++ (v ++ q :: behind)))))) =
        before ++ (quoted q name ++ (marker.text ++ q :: behind)) ↔
      ¬ (assignment U).Ready before ∧ (v = marker.text ∨ IsNakedKey U v) := by
  constructor
  · intro heq
    have hready := quoted_not_ready hU hname hq hm heq
    exact ⟨hready, quoted_source hU hname hq hv hm hready heq⟩
  · rintro ⟨hready, hhidden⟩
    exact quoted_masked hU hname hq hm hready hhidden

end InQuotes

end Entries

end

/-- What besides the first pattern decides whether a value is masked: in quotes, that the value is a
naked key; without them, that the text before ends in no name of an authorization header. -/
def Rendering.Hides (U : Unicode) (pre value : List Char) : Rendering → Prop
  | .assign => ¬ (authorization U).Ready pre
  | .colon => ¬ (authorization U).Ready pre
  | .repr => value = marker.text ∨ IsNakedKey U value
  | .json => value = marker.text ∨ IsNakedKey U value

/-- **When `redact` hides a value.** In an entry of a configuration the value is replaced by the
marker exactly when the text before does not end in a key of the assignments and, if the key is not
in quotes, in no name of an authorization header; if the key is in quotes, the value has to be a
naked key.

One case for each rendering: the first two are `plain_iff`, the others `quoted_iff`. What is
asserted is the whole text, so nothing else is masked either. -/
theorem redact_hides_iff (U : Unicode) (hU : Alphabet U) (r : Rendering)
    (key value pre post : String) (h : Surrounded U key value pre post) :
    redact U (pre ++ r.text key value ++ post) = pre ++ r.text key REDACTED ++ post ↔
      ¬ (assignment U).Ready pre.toList ∧ r.Hides U pre.toList value.toList := by
  have hm : Margins U pre.toList post.toList :=
    ⟨⟨secretless_of_redact hU h.pre_other, secretless_of_redact hU h.post_other⟩,
      h.pre_blank, h.post_blank⟩
  have hne : value.toList ≠ [] := by
    rw [ne_eq, String.toList_eq_nil_iff]
    exact h.value_ne
  have hchars : ∀ c ∈ value.toList, isValueChar c = true := by
    intro c hc
    obtain ⟨hspace, hquote, hdouble, hcomma⟩ := h.value_chars c hc
    simp [isValueChar, hspace, hquote, hdouble, hcomma]
  have hnot : '\'' ∉ value.toList ∧ '"' ∉ value.toList :=
    ⟨fun hmem => (h.value_chars _ hmem).2.1 rfl, fun hmem => (h.value_chars _ hmem).2.2.1 rfl⟩
  rw [← String.toList_inj, toList_redact_passes]
  cases r with
  | assign =>
    have heq := plain_iff hU h.isSecretName (.inr rfl) (s := [])
      (fun c hc => absurd hc List.not_mem_nil) hne hchars hm
    simpa [Rendering.text, Rendering.Hides, ← marker_text] using heq
  | colon =>
    have heq := plain_iff hU h.isSecretName (.inl rfl) (s := [' '])
      (fun c hc => by rw [List.mem_singleton.mp hc]; rfl) hne hchars hm
    simpa [Rendering.text, Rendering.Hides, ← marker_text] using heq
  | repr =>
    have heq := quoted_iff hU h.isSecretName (.inl rfl) hnot.1 hm
    simpa [Rendering.text, Rendering.Hides, quoted, ← marker_text] using heq
  | json =>
    have heq := quoted_iff hU h.isSecretName (.inr rfl) hnot.2 hm
    simpa [Rendering.text, Rendering.Hides, quoted, ← marker_text] using heq

/-- Tables in which the letters that fold to ASCII are alphanumeric, and nothing else is. -/
private def letterTables : Unicode := { Unicode.ascii with isAlnum := isLetter }

/-- A quote behind the key hides the sign from the assignments. -/
example : redact letterTables "'OPENAI_API_KEY': 'hunter2'" = "'OPENAI_API_KEY': 'hunter2'" := by
  decide +kernel

private theorem letterTables_alphabet : Alphabet letterTables where
  isAlnum_letter _ h _ := h
  isAlnum_space _ h _ := isLetter_of_isSpace h

private theorem openaiKey_surrounded :
    Surrounded letterTables "OPENAI_API_KEY" "hunter2" "config: " " loaded" where
  isSecretName := .inl ⟨"OPENAI_API_KEY", by decide, by
    show "OPENAI_API_KEY".toList.map caseFold = "OPENAI_API_KEY".toList.map Char.toLower
    decide⟩
  value_ne := by decide
  value_chars := by decide
  pre_other := by decide
  post_other := by decide
  pre_blank := by decide
  post_blank := by decide

/-- An assignment behind white space. -/
theorem redact_hides_assignment :
    ¬ (assignment letterTables).Ready "config: ".toList ∧
      Rendering.assign.Hides letterTables "config: ".toList "hunter2".toList :=
  (redact_hides_iff letterTables letterTables_alphabet .assign "OPENAI_API_KEY" "hunter2"
    "config: " " loaded" openaiKey_surrounded).mp (by decide)

/-- `config: {'OPENAI_API_KEY': 'hunter2'} loaded` without the braces: nothing is masked. -/
theorem not_redact_hides : ¬ ∀ (U : Unicode), Alphabet U →
    ∀ (r : Rendering) (key value pre post : String), Surrounded U key value pre post →
      redact U (pre ++ r.text key value ++ post) = pre ++ r.text key REDACTED ++ post := by
  intro h
  exact absurd (h letterTables letterTables_alphabet .repr "OPENAI_API_KEY" "hunter2" "config: "
    " loaded" openaiKey_surrounded) (by decide)

end Wapsell.Security
