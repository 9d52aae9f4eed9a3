import Wapsell.Lib.Select
import Wapsell.Resources.Adapters

/-!
# The requests of the adapters

How the adapters build a request from a config that is any JSON, and what
they read of the response. The HTTP client and the HTML parser are
parameters; what comes of the request is the `Upstream` that `fetch` goes on
from. Everything a config can hold that no adapter foresees raises here, and
not as an `AdapterError`.

The client is `Disciplined`: on headers that are texts it raises nothing
but its own `HTTPError`, which the adapter catches. Headers that are no
texts are not refused by the adapter, and what a client makes of them is
left open.

What this does not establish: which configs an operator writes. The form
of the dashboard is not consulted here.
-/

namespace Wapsell.Resources

open Lib Py

/-! ## The headers and the timeout -/

/-- The headers of a request, in order. A config can name them by anything hashable. -/
abbrev Headers := List (Json × Json)

/-- A value that can be the key of a dictionary. -/
def hashable : Json → Bool
  | .arr _ => false
  | .obj _ => false
  | _ => true

/-- `headers[name] = value`. -/
def setHeader (headers : Headers) (name value : Json) : Headers :=
  if headers.any fun h => h.1.pyEq name then
    headers.map fun h => if h.1.pyEq name then (h.1, value) else h
  else headers ++ [(name, value)]

/-- An element of the sequence a dictionary is made from: a sequence of two, the first a key. -/
def pairOf : Json → Except Exc (Json × Json)
  | .arr items =>
    match items with
    | [name, value] => if hashable name then .ok (name, value) else .error .typeError
    | _ => .error .valueError
  | .str s =>
    match s.toList with
    | [name, value] => .ok (.str (String.singleton name), .str (String.singleton value))
    | _ => .error .valueError
  | .obj fields =>
    match fields with
    | [name, value] => .ok (.str name.1, .str value.1)
    | _ => .error .valueError
  | _ => .error .typeError

/-- The loop of `dict(pairs)`. -/
def setPairs : Headers → List Json → Except Exc Headers
  | headers, [] => .ok headers
  | headers, item :: items => do
    let pair ← pairOf item
    setPairs (setHeader headers pair.1 pair.2) items

/-- `dict(value)`. The characters of a text are no pairs. -/
def dictOf : Json → Except Exc Headers
  | .obj fields => .ok (fields.foldl (fun headers f => setHeader headers (.str f.1) f.2) [])
  | .arr items => setPairs [] items
  | .str s => if s = "" then .ok [] else .error .valueError
  | _ => .error .typeError

/-- `headers.setdefault(name, value)`. -/
def setDefault (headers : Headers) (name value : String) : Headers :=
  if headers.any fun h => h.1.pyEq (.str name) then headers else headers ++ [(.str name, .str value)]

/-- Seconds, unless the config says otherwise. -/
def DEFAULT_HTTP_TIMEOUT_SECONDS : Json := .float "15.0"

/-- The `User-Agent` sent when the config has none. -/
def DEFAULT_USER_AGENT : String := "Mozilla/5.0 (compatible; WapsellBot/0.15; +https://wapsell.com)"

/-- `dict(source.config.get("headers") or {})`. -/
def configHeaders (source : DataSource) : Except Exc Headers :=
  let headers := source.config.getD "headers" .null
  if headers.truthy then dictOf headers else .ok []

/-- `float(source.config.get("timeout", _DEFAULT_HTTP_TIMEOUT_SECONDS))`. -/
def configTimeout (U : Unicode) (source : DataSource) : Except Exc Double :=
  (source.config.getD "timeout" DEFAULT_HTTP_TIMEOUT_SECONDS).toFloat U

/-- The defaults of an adapter, each set where the config does not. -/
def withDefaults (defaults : List (String × String)) (headers : Headers) : Headers :=
  defaults.foldl (fun headers d => setDefault headers d.1 d.2) headers

/-- The headers an adapter adds. -/
def defaultHeaders : DataSourceKind → List (String × String)
  | .jsonApi => [("User-Agent", DEFAULT_USER_AGENT), ("Accept", "application/json")]
  | _ => [("User-Agent", DEFAULT_USER_AGENT)]

/-! ## The client -/

/-- What `response.json()` comes to: a value, a `ValueError`, or what else it raises, as on a body
that nests too deep. -/
inductive Decoded
  | payload (value : Json)
  | valueError (message : String)
  | raised (e : Exc)

/-- A response as the client hands it over. -/
structure HttpResponse where
  status : Int
  json : Decoded
  text : String

/-- What comes of `client.get`: an `httpx.HTTPError`, another exception, a response. -/
inductive HttpOutcome
  | httpError (message : String)
  | raised (e : Exc)
  | response (response : HttpResponse)

/-- `client.get(url, headers=headers, timeout=timeout)`. -/
abbrev HttpClient := String → Headers → Double → HttpOutcome

/-- Names and values are texts. -/
def WellTyped (headers : Headers) : Prop :=
  ∀ h ∈ headers, (∃ name, h.1 = .str name) ∧ ∃ value, h.2 = .str value

/-- On headers of texts the client raises nothing but an `httpx.HTTPError`, as its documentation has
it. -/
def HttpClient.Disciplined (client : HttpClient) : Prop :=
  ∀ url headers seconds, WellTyped headers → ∀ e, client url headers seconds ≠ .raised e

/-! ## The page -/

/-- What the scraper uses of BeautifulSoup, over its nodes. A selector that is no CSS raises. -/
structure Soup (Node : Type) where
  /-- `BeautifulSoup(html, "html.parser").select(selector)`. -/
  select : String → String → Except Exc (List Node)
  /-- `node.select_one(selector)`. -/
  selectOne : Node → String → Except Exc (Option Node)
  /-- `node.get_text(strip=True)`. -/
  getText : Node → String
  /-- `node.get(attr)`. -/
  getAttr : Node → String → Option Json

/-- The first and the last of what `s.rpartition(sep)` answers, where `sep` is in `s`. -/
def rpartition (sep : Char) (s : String) : String × String :=
  (String.ofList ((s.toList.reverse.dropWhile (· ≠ sep)).drop 1).reverse,
    String.ofList (s.toList.reverse.takeWhile (· ≠ sep)).reverse)

/-- `_split_attr`. Of a list or a dictionary `in` finds an item, which has no `rpartition`; without
it only an empty one goes on, as no selector: `select_one` hashes the others. -/
def splitAttr : Json → Except Exc (String × Option String)
  | .str raw =>
    if '@' ∈ raw.toList then
      let parts := rpartition '@' raw
      .ok (strip parts.1, if strip parts.2 = "" then none else some (strip parts.2))
    else .ok (raw, none)
  | .arr items =>
    if items.any fun item => item.pyEq (.str "@") then .error .attributeError
    else if items.isEmpty then .ok ("", none)
    else .error .typeError
  | .obj fields =>
    if fields.any fun f => f.1 = "@" then .error .attributeError
    else if fields.isEmpty then .ok ("", none)
    else .error .typeError
  | _ => .error .typeError

section Scraper

variable {Node : Type} (soup : Soup Node)

/-- `node.select_one(sel) if sel else node`. -/
def selected (node : Node) (sel : String) : Except Exc (Option Node) :=
  if sel = "" then .ok (some node) else soup.selectOne node sel

/-- What a field's selector picks in an item block. -/
def fieldOf (node : Node) (rawSelector : Json) : Except Exc (Option Json) := do
  let parts ← splitAttr rawSelector
  let found ← selected soup node parts.1
  match found, parts.2 with
  | none, _ => .ok none
  | some found, none => .ok (some (.str (soup.getText found)))
  | some found, some attr => .ok (soup.getAttr found attr)

/-- The loop over `fields.items()`. -/
def rowOf (node : Node) : Dict String Json → List (String × Json) → Except Exc (Dict String Json)
  | row, [] => .ok row
  | row, field :: fields => do
    match ← fieldOf soup node field.2 with
    | none => rowOf node row fields
    | some value => rowOf node (row.set field.1 value) fields

/-- `_extract_items`. -/
def extractItems (html itemSelector : String) (fields : List (String × Json)) :
    Except Exc (List (Dict String Json)) := do
  let nodes ← soup.select html itemSelector
  flatMapM (fun node => do
    let row ← rowOf soup node Dict.empty fields
    .ok (if row.entries.isEmpty then [] else [row])) nodes

/-! ## What comes of the request -/

/-- The text of a config entry an adapter has checked. -/
def configText (source : DataSource) (key : String) : String :=
  (filledText (source.config.getD key .null)).getD ""

/-- `source.config.get("fields") or {}`, past its check. -/
def configFields (source : DataSource) : List (String × Json) :=
  match source.config.getD "fields" .null with
  | .obj fields => fields
  | _ => []

/-- What an adapter reads of a response that is no failure. -/
def readResponse (source : DataSource) (response : HttpResponse) : Except Exc Response :=
  match source.kind with
  | .html => do
    let scraped ← extractItems soup response.text (configText source "item_selector")
      (configFields source)
    .ok { status := response.status, json := .ok .null, scraped }
  | _ =>
    match response.json with
    | .payload value => .ok { status := response.status, json := .ok value, scraped := [] }
    | .valueError message => .ok { status := response.status, json := .error message, scraped := [] }
    | .raised e => .error e

/-- The call of the client. -/
def requested (U : Unicode) (client : HttpClient) (source : DataSource) :
    Except Exc HttpOutcome := do
  let headers ← configHeaders source
  let timeout ← configTimeout U source
  .ok (client (configText source "url") (withDefaults (defaultHeaders source.kind) headers) timeout)

/-- What an adapter goes on from, by what the client answered. -/
def upstreamFrom (source : DataSource) : HttpOutcome → Upstream
  | .httpError message => .httpError message
  | .raised e => .raised e
  | .response response =>
    if HTTP_ERROR_THRESHOLD ≤ response.status then
      -- of a failure only the status is read
      .answered { status := response.status, json := .ok .null, scraped := [] }
    else
      match readResponse soup source response with
      | .error e => .raised e
      | .ok read => .answered read

/-- What comes of the request of a source. -/
def upstreamOf (U : Unicode) (client : HttpClient) (source : DataSource) : Upstream :=
  match requested U client source with
  | .error e => .raised e
  | .ok outcome => upstreamFrom soup source outcome

end Scraper

/-! ## When the request does not raise -/

/-- A sequence of two, the first hashable. -/
def IsPair : Json → Prop
  | .arr items => ∃ name value, items = [name, value] ∧ hashable name = true
  | .str s => s.toList.length = 2
  | .obj fields => fields.length = 2
  | _ => False

/-- Headers `dict` takes: nothing, a dictionary, or a list of pairs. -/
def IsHeaders (value : Json) : Prop :=
  value.truthy = false ∨ value.isObj = true ∨ value.isArr = true ∧ ∀ item ∈ value.items, IsPair item

/-- A selector that is a text, or an empty list or dictionary. -/
def IsSelector : Json → Prop
  | .str _ => True
  | .arr items => items = []
  | .obj fields => fields = []
  | _ => False

theorem pairOf_eq_ok_iff {item : Json} : (∃ pair, pairOf item = .ok pair) ↔ IsPair item := by
  cases item with
  | arr items =>
    rcases items with _ | ⟨name, _ | ⟨value, _ | ⟨third, rest⟩⟩⟩
    case cons.cons.nil =>
      by_cases hname : hashable name = true
      · exact iff_of_true ⟨(name, value), by simp [pairOf, hname]⟩ ⟨name, value, rfl, hname⟩
      · simp [pairOf, IsPair, hname]
    all_goals simp [pairOf, IsPair]
  | str s =>
    rw [IsPair, pairOf]
    split
    · next hs => exact iff_of_true ⟨_, rfl⟩ (by rw [hs]; rfl)
    · next hother =>
      refine iff_of_false (error_not_ok _) fun hlen => ?_
      obtain ⟨a, b, hs⟩ := List.length_eq_two.mp hlen
      exact hother a b hs
  | obj fields =>
    rcases fields with _ | ⟨name, _ | ⟨value, _ | ⟨third, rest⟩⟩⟩
    all_goals simp [pairOf, IsPair]
  | _ => exact iff_of_false (error_not_ok _) fun h => h

theorem setPairs_eq_ok_iff : ∀ {items : List Json} {headers : Headers},
    (∃ out, setPairs headers items = .ok out) ↔ ∀ item ∈ items, IsPair item
  | [], headers => iff_of_true ⟨headers, rfl⟩ (by simp)
  | item :: items, headers => by
    rw [List.forall_mem_cons, ← pairOf_eq_ok_iff]
    simp only [setPairs, bind_eq_ok]
    constructor
    · rintro ⟨out, pair, hpair, hrest⟩
      exact ⟨⟨pair, hpair⟩, setPairs_eq_ok_iff.mp ⟨out, hrest⟩⟩
    · rintro ⟨⟨pair, hpair⟩, hrest⟩
      obtain ⟨out, hout⟩ := setPairs_eq_ok_iff.mpr hrest
      exact ⟨out, pair, hpair, hout⟩

theorem configHeaders_eq_ok_iff {source : DataSource} :
    (∃ headers, configHeaders source = .ok headers) ↔
      IsHeaders (source.config.getD "headers" .null) := by
  rw [configHeaders, IsHeaders]
  cases hvalue : source.config.getD "headers" .null with
  | obj fields => exact iff_of_true (by split <;> exact ⟨_, rfl⟩) (.inr (.inl rfl))
  | arr items =>
    simp only [Json.isObj, Json.isArr, Json.items, true_and, Bool.false_eq_true, false_or]
    split
    · next htruthy => simp [dictOf, setPairs_eq_ok_iff, htruthy]
    · next hfalsy => exact iff_of_true ⟨_, rfl⟩ (.inl (Bool.not_eq_true _ ▸ hfalsy))
  | str s =>
    by_cases hs : s = ""
    · exact iff_of_true ⟨[], by simp [hs, Json.truthy]⟩ (.inl (by simp [hs, Json.truthy]))
    · refine iff_of_false ?_ (by simp [hs, Json.truthy, Json.isObj, Json.isArr])
      rintro ⟨_, h⟩
      simp [hs, Json.truthy, dictOf] at h
  | _ =>
    simp only [Json.isObj, Json.isArr, Bool.false_eq_true, false_and, or_false]
    split
    · next htruthy => exact iff_of_false (error_not_ok _) (by simp [htruthy])
    · next hfalsy => exact iff_of_true ⟨_, rfl⟩ (Bool.not_eq_true _ ▸ hfalsy)

theorem splitAttr_eq_ok_iff {raw : Json} : (∃ parts, splitAttr raw = .ok parts) ↔ IsSelector raw := by
  cases raw with
  | str s =>
    rw [splitAttr]
    split <;> exact iff_of_true ⟨_, rfl⟩ trivial
  | arr items =>
    cases items with
    | nil => exact iff_of_true ⟨_, rfl⟩ rfl
    | cons item items =>
      refine iff_of_false ?_ fun h => by cases h
      rintro ⟨_, h⟩
      rw [splitAttr] at h
      split at h <;> cases h
  | obj fields =>
    cases fields with
    | nil => exact iff_of_true ⟨_, rfl⟩ rfl
    | cons field fields =>
      refine iff_of_false ?_ fun h => by cases h
      rintro ⟨_, h⟩
      rw [splitAttr] at h
      split at h <;> cases h
  | _ => exact iff_of_false (error_not_ok _) fun h => h

section Scraper

variable {Node : Type} (soup : Soup Node)

/-- A field's selector can be run in an item block. -/
def Picks (node : Node) (rawSelector : Json) : Prop :=
  IsSelector rawSelector ∧ ∀ parts, splitAttr rawSelector = .ok parts →
    ∃ found, selected soup node parts.1 = .ok found

/-- The selectors of a scraper can be run on a page. -/
def Scrapes (source : DataSource) (html : String) : Prop :=
  ∃ nodes, soup.select html (configText source "item_selector") = .ok nodes ∧
    ∀ node ∈ nodes, ∀ field ∈ configFields source, Picks soup node field.2

/-- The response can be read: the page of a scraper, the body of an API. -/
def Readable (source : DataSource) (response : HttpResponse) : Prop :=
  match source.kind with
  | .html => Scrapes soup source response.text
  | _ => ∀ e, response.json ≠ .raised e

/-- The request can be made, and its response read: `dict` takes the headers, `float` the timeout,
the client the rest, and the page or the body is one the adapter can go through. -/
def Served (U : Unicode) (client : HttpClient) (source : DataSource) : Prop :=
  IsHeaders (source.config.getD "headers" .null) ∧ (∃ seconds, configTimeout U source = .ok seconds) ∧
    ∀ headers seconds, configHeaders source = .ok headers → configTimeout U source = .ok seconds →
      (WellTyped headers ∨ ∀ e, client (configText source "url")
        (withDefaults (defaultHeaders source.kind) headers) seconds ≠ .raised e) ∧
      ∀ response, client (configText source "url")
          (withDefaults (defaultHeaders source.kind) headers) seconds = .response response →
        response.status < HTTP_ERROR_THRESHOLD → Readable soup source response

variable {soup}

theorem fieldOf_eq_ok_iff {node : Node} {rawSelector : Json} :
    (∃ value, fieldOf soup node rawSelector = .ok value) ↔ Picks soup node rawSelector := by
  rw [Picks, ← splitAttr_eq_ok_iff]
  simp only [fieldOf, bind_eq_ok]
  constructor
  · rintro ⟨value, parts, hparts, found, hfound, -⟩
    refine ⟨⟨parts, hparts⟩, fun parts' hparts' => ⟨found, ?_⟩⟩
    rw [hparts] at hparts'
    cases hparts'
    exact hfound
  · rintro ⟨⟨parts, hparts⟩, hselect⟩
    obtain ⟨found, hfound⟩ := hselect parts hparts
    cases found with
    | none => exact ⟨none, parts, hparts, none, hfound, rfl⟩
    | some found =>
      cases hattr : parts.2 with
      | none => exact ⟨_, parts, hparts, some found, hfound, by rw [hattr]⟩
      | some attr => exact ⟨_, parts, hparts, some found, hfound, by rw [hattr]⟩

theorem rowOf_eq_ok_iff {node : Node} : ∀ {fields : List (String × Json)} {row : Dict String Json},
    (∃ out, rowOf soup node row fields = .ok out) ↔ ∀ field ∈ fields, Picks soup node field.2
  | [], row => iff_of_true ⟨row, rfl⟩ (by simp)
  | field :: fields, row => by
    rw [List.forall_mem_cons, ← fieldOf_eq_ok_iff]
    simp only [rowOf, bind_eq_ok]
    constructor
    · rintro ⟨out, value, hvalue, hrest⟩
      refine ⟨⟨value, hvalue⟩, ?_⟩
      cases value with
      | none => exact rowOf_eq_ok_iff.mp ⟨out, hrest⟩
      | some value => exact rowOf_eq_ok_iff.mp ⟨out, hrest⟩
    · rintro ⟨⟨value, hvalue⟩, hrest⟩
      cases value with
      | none =>
        obtain ⟨out, hout⟩ := rowOf_eq_ok_iff.mpr hrest
        exact ⟨out, none, hvalue, hout⟩
      | some value =>
        obtain ⟨out, hout⟩ := rowOf_eq_ok_iff.mpr hrest
        exact ⟨out, some value, hvalue, hout⟩

theorem extractItems_eq_ok_iff {html itemSelector : String} {fields : List (String × Json)} :
    (∃ rows, extractItems soup html itemSelector fields = .ok rows) ↔
      ∃ nodes, soup.select html itemSelector = .ok nodes ∧
        ∀ node ∈ nodes, ∀ field ∈ fields, Picks soup node field.2 := by
  have hround : ∀ node, (∃ rows, (do
      let row ← rowOf soup node Dict.empty fields
      .ok (if row.entries.isEmpty then [] else [row])) = Except.ok (ε := Exc) rows) ↔
      ∀ field ∈ fields, Picks soup node field.2 := by
    intro node
    rw [← rowOf_eq_ok_iff]
    simp only [bind_eq_ok]
    constructor
    · rintro ⟨-, row, hrow, -⟩
      exact ⟨row, hrow⟩
    · rintro ⟨row, hrow⟩
      exact ⟨_, row, hrow, rfl⟩
  simp only [extractItems, bind_eq_ok]
  constructor
  · rintro ⟨rows, nodes, hnodes, hloop⟩
    refine ⟨nodes, hnodes, fun node hnode => (hround node).mp ?_⟩
    exact flatMapM_eq_ok_iff.mp ⟨rows, hloop⟩ node hnode
  · rintro ⟨nodes, hnodes, hpicks⟩
    obtain ⟨rows, hloop⟩ := flatMapM_eq_ok_iff.mpr fun node hnode =>
      (hround node).mpr (hpicks node hnode)
    exact ⟨rows, nodes, hnodes, hloop⟩

theorem readResponse_eq_ok_iff {source : DataSource} {response : HttpResponse} :
    (∃ read, readResponse soup source response = .ok read) ↔ Readable soup source response := by
  rw [readResponse, Readable]
  split
  · rw [Scrapes, ← extractItems_eq_ok_iff]
    simp only [bind_eq_ok]
    constructor
    · rintro ⟨-, rows, hrows, -⟩
      exact ⟨rows, hrows⟩
    · rintro ⟨rows, hrows⟩
      exact ⟨_, rows, hrows, rfl⟩
  · cases hjson : response.json with
    | raised e => exact iff_of_false (error_not_ok _) fun h => h e rfl
    | _ => exact iff_of_true ⟨_, rfl⟩ fun e h => by cases h

theorem WellTyped.setDefault {headers : Headers} (h : WellTyped headers) (name value : String) :
    WellTyped (setDefault headers name value) := by
  unfold Resources.setDefault
  split
  · exact h
  · intro header hheader
    rcases List.mem_append.mp hheader with hold | hnew
    · exact h header hold
    · rw [List.mem_singleton.mp hnew]
      exact ⟨⟨name, rfl⟩, value, rfl⟩

theorem WellTyped.withDefaults : ∀ (defaults : List (String × String)) {headers : Headers},
    WellTyped headers → WellTyped (withDefaults defaults headers)
  | [], _, h => h
  | d :: defaults, _, h => WellTyped.withDefaults defaults (h.setDefault d.1 d.2)

theorem upstreamFrom_ne_raised_iff {source : DataSource} {outcome : HttpOutcome} :
    (∀ e, upstreamFrom soup source outcome ≠ .raised e) ↔ (∀ e, outcome ≠ .raised e) ∧
      ∀ response, outcome = .response response → response.status < HTTP_ERROR_THRESHOLD →
        Readable soup source response := by
  cases outcome with
  | httpError message => simp [upstreamFrom]
  | raised e => simp [upstreamFrom]
  | response response =>
    simp only [ne_eq, reduceCtorEq, not_false_eq_true, implies_true, true_and,
      HttpOutcome.response.injEq, forall_eq', upstreamFrom]
    split
    · next hfailed =>
      exact iff_of_true (fun e h => by cases h) fun hlow => absurd hlow (Int.not_lt.mpr hfailed)
    · next hreceived =>
      rw [forall_prop_of_true (Int.not_le.mp hreceived), ← readResponse_eq_ok_iff]
      cases readResponse soup source response with
      | error e => exact iff_of_false (fun h => h e rfl) (error_not_ok _)
      | ok read => exact iff_of_true (fun e h => by cases h) ⟨read, rfl⟩

/-- **When the request of a source raises.** Of a client that takes texts, the request comes to no
exception exactly when it can be made and its response read.

The client's own `HTTPError` is an outcome and no exception here, for the adapter catches it. -/
theorem upstreamOf_ne_raised_iff {U : Unicode} {client : HttpClient} (hclient : client.Disciplined)
    {source : DataSource} :
    (∀ e, upstreamOf soup U client source ≠ .raised e) ↔ Served soup U client source := by
  rw [Served, ← configHeaders_eq_ok_iff, upstreamOf, requested]
  cases hheaders : configHeaders source with
  | error e => exact iff_of_false (fun h => h e rfl) fun h => error_not_ok _ h.1
  | ok headers =>
    cases htimeout : configTimeout U source with
    | error e => exact iff_of_false (fun h => h e rfl) fun h => error_not_ok _ h.2.1
    | ok seconds =>
      rw [ok_bind, ok_bind]
      simp only [Except.ok.injEq, exists_eq', true_and, upstreamFrom_ne_raised_iff]
      constructor
      · rintro ⟨htaken, hread⟩ _ _ rfl rfl
        exact ⟨.inr htaken, hread⟩
      · intro h
        obtain ⟨hwell | htaken, hread⟩ := h headers seconds rfl rfl
        · exact ⟨hclient _ _ _ (hwell.withDefaults _), hread⟩
        · exact ⟨htaken, hread⟩

end Scraper

/-! ## When a fetch raises something else -/

/-- The adapter gets past its own checks of the config, and sends its request. -/
def Asks (source : DataSource) : Prop :=
  match source.kind with
  | .jsonApi => (filledText (source.config.getD "url" .null)).isSome
  | .html => (filledText (source.config.getD "url" .null)).isSome ∧
      (filledText (source.config.getD "item_selector" .null)).isSome ∧
      ((source.config.getD "fields" .null).truthy = true →
        (source.config.getD "fields" .null).isObj = true)
  | _ => False

/-- What goes on from an answer with `AdapterError`s only raises what came before it. -/
theorem bind_eq_other_iff {α β : Type} {x : Except FetchError α} {f : α → Except FetchError β} {e : Exc}
    (hf : ∀ a, f a ≠ .error (.other e)) :
    (x >>= f) = .error (.other e) ↔ x = .error (.other e) := by
  cases x with
  | error failure => exact ⟨fun h => by cases h; rfl, fun h => by cases h; rfl⟩
  | ok a => exact iff_of_false (hf a) fun h => by cases h

theorem received_eq_other_iff {url : String} {upstream : Upstream} {e : Exc} :
    received url upstream = .error (.other e) ↔ upstream = .raised e := by
  cases upstream with
  | httpError message => simp [received]
  | raised e' => simp [received]
  | answered response =>
    rw [received]
    split <;> simp

theorem walkPath_ne_other (quoted : String) (U : Unicode) (e : Exc) :
    ∀ (chunks : List String) (items : Json), walkPath quoted U chunks items ≠ .error (.other e)
  | [], items => by simp [walkPath]
  | chunk :: rest, .obj fields => by
    rw [walkPath]
    split
    · simp
    · exact walkPath_ne_other quoted U e rest _
  | chunk :: rest, .null => by simp [walkPath]
  | chunk :: rest, .bool _ => by simp [walkPath]
  | chunk :: rest, .int _ => by simp [walkPath]
  | chunk :: rest, .float _ => by simp [walkPath]
  | chunk :: rest, .str _ => by simp [walkPath]
  | chunk :: rest, .arr _ => by simp [walkPath]

/-- **A fetch raises something else than an `AdapterError`** exactly when its request does.

An adapter that refuses the config sends no request, so what the request would have raised is not
seen. -/
theorem fetch_eq_other_iff {U : Unicode} {source : DataSource} {upstream : Upstream} {e : Exc} :
    fetch U source upstream = .error (.other e) ↔ Asks source ∧ upstream = .raised e := by
  rw [fetch, Asks]
  cases source.kind with
  | jsonApi =>
    dsimp only
    rw [fetchJsonApi]
    cases hurl : filledText (source.config.getD "url" .null) with
    | none => simp
    | some url =>
      dsimp only
      rw [bind_eq_other_iff, received_eq_other_iff]
      · simp
      · intro response
        split
        · simp
        · split
          all_goals
            rw [Ne, bind_eq_other_iff]
            · first | exact walkPath_ne_other _ U e _ _ | simp
            · intro items
              split <;> simp
  | html =>
    dsimp only
    rw [fetchHtml]
    cases hurl : filledText (source.config.getD "url" .null) with
    | none => simp
    | some url =>
      dsimp only
      split
      · next hselector => simp [Option.isNone_iff_eq_none.mp hselector]
      · next hselector =>
        split
        · next hfields => simp_all
        · next hfields =>
          rw [bind_eq_other_iff, received_eq_other_iff]
          · simp_all [Option.isSome_iff_ne_none]
          · simp
  | _ => simp

end Wapsell.Resources
