import Wapsell.Resources.Models

/-!
# Data source adapters

`sdk/wapsell/resources/adapters.py`: from the answer of an upstream to the
dictionaries the store ingests. The request itself, with its headers and
its timeout, and the HTML parser are other people's code; what comes of
them is an argument.

A fetch raises `AdapterError` for what the adapter foresees: a config
without a URL, a response past the status threshold, a payload without
the list it was promised. What it does not foresee comes through as it
is, and the synchronizer catches only the first kind.

**What this does not establish.** That a page was scraped rightly; the
selectors are applied by a library, and its answer is any list of rows.
-/

namespace Wapsell.Resources

open Lib Py

/-- What a fetch raises: an `AdapterError` with its message, or anything else.

The synchronizer makes a report of the first kind. The second leaves it as an exception. -/
inductive FetchError
  | adapter (message : String)
  | other (e : Exc)

/-- A response: its status, what `response.json()` answers or the text of its `ValueError`, and what
the selectors of the config pick from the page. -/
structure Response where
  status : Int
  json : Except String Json
  scraped : List (Dict String Json)

/-- What comes of the request. -/
inductive Upstream
  | httpError (message : String)
  | raised (e : Exc)
  | answered (response : Response)

/-- HTTP status threshold above which a response is an upstream failure. -/
def HTTP_ERROR_THRESHOLD : Int := 400

/-- `isinstance(value, str) and value.strip()`. -/
def filledText : Json → Option String
  | .str s => if strip s = "" then none else some s
  | _ => none

/-- `type(value).__name__`. -/
def typeName : Json → String
  | .null => "NoneType"
  | .bool _ => "bool"
  | .int _ => "int"
  | .float _ => "float"
  | .str _ => "str"
  | .arr _ => "list"
  | .obj _ => "dict"

/-- A response that is no failure.

Every status below the threshold passes, a redirect as well. -/
def received (url : String) : Upstream → Except FetchError Response
  | .httpError message => .error (.adapter s!"http error fetching {url}: {message}")
  | .raised e => .error (.other e)
  | .answered response =>
    if HTTP_ERROR_THRESHOLD ≤ response.status then
      .error (.adapter s!"{url} returned HTTP {response.status}")
    else .ok response

/-- The loop over the chunks of `items_path`: an object is entered by its key, and anything else, or
a key that is missing, is an `AdapterError` that names the path.

A null counts as missing, so a path that ends in one is refused with the name of its last chunk. -/
def walkPath (quoted : String) (U : Unicode) : List String → Json → Except FetchError Json
  | [], items => .ok items
  | chunk :: rest, .obj fields =>
    match (Json.field chunk fields).getD .null with
    | .null => .error (.adapter ("items_path " ++ quoted ++ ": missing key " ++ reprStr U chunk))
    | items => walkPath quoted U rest items
  | _ :: _, _ => .error (.adapter ("items_path " ++ quoted ++ " fell off the JSON shape"))

/-- Entries that are no dictionary are wrapped in one.

A list of numbers makes rows with the one field `value`. -/
def asRow : Json → Dict String Json
  | .obj fields => fields.foldl (fun row f => row.set f.1 f.2) Dict.empty
  | item => Dict.empty.set "value" item

/-- `JsonApiDataSourceAdapter.fetch`.

The URL is asked for first, then the answer, then the path, so the message names the first thing
that is wrong. -/
def fetchJsonApi (U : Unicode) (source : DataSource) (upstream : Upstream) :
    Except FetchError (List (Dict String Json)) := do
  match filledText (source.config.getD "url" .null) with
  | none => .error (.adapter "JsonApiDataSource requires config.url")
  | some url => do
    let response ← received url upstream
    match response.json with
    | .error message => .error (.adapter s!"{url} did not return JSON: {message}")
    | .ok payload => do
      let items ← match filledText (source.config.getD "items_path" .null) with
        | none => .ok payload
        | some path => walkPath (reprStr U path) U ((path.toList.splitOn '.').map String.ofList) payload
      match items with
      | .arr items => .ok (items.map asRow)
      | other => .error (.adapter
          ("JsonApiDataSource expected a list at the items_path; got " ++ typeName other))

/-- `HtmlScraperDataSourceAdapter.fetch`.

The config is checked before the request, where a JSON source learns of a bad path only from the
answer. -/
def fetchHtml (source : DataSource) (upstream : Upstream) :
    Except FetchError (List (Dict String Json)) := do
  match filledText (source.config.getD "url" .null) with
  | none => .error (.adapter "HtmlScraperDataSource requires config.url")
  | some url =>
    if (filledText (source.config.getD "item_selector" .null)).isNone then
      .error (.adapter "HtmlScraperDataSource requires config.item_selector")
    else
      let fields := source.config.getD "fields" .null
      if fields.truthy && !fields.isObj then
        .error (.adapter "HtmlScraperDataSource config.fields must be a dict")
      else do
        let response ← received url upstream
        .ok response.scraped

/-- The fetch of the adapter `build_adapter` picks.

The three kinds that are pushed or entered have nothing to fetch, and a sync of them reports success
with no rows. -/
def fetch (U : Unicode) (source : DataSource) (upstream : Upstream) :
    Except FetchError (List (Dict String Json)) :=
  match source.kind with
  | .html => fetchHtml source upstream
  | .jsonApi => fetchJsonApi U source upstream
  | .webhook => .ok []
  | .manual => .ok []
  | .csv => .ok []

end Wapsell.Resources
