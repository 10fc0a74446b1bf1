import NewsDay.Library.QueryString
import NewsDay.Network.NewsApiDownloads

/-! # What the service reads in a URL

The downloads write their arguments into the query of a URL. The characters
that `urlQueryAllowed` leaves alone include the ampersand that ends a parameter,
so an argument arrives as it is exactly if it has none.
-/

namespace NewsDay

open Foundation QueryString

namespace Download

/-- The text of the URL that a download requests. -/
def urlText : Download → String
  | .sources => NewsApi.sourcesURL
  | .articles source => NewsApi.articlesURL source
  | .headlines country limit => NewsApi.headlinesURL country limit

/-- The text of the caller that goes into the URL. -/
def argument : Download → String
  | .sources => ""
  | .articles source => source.id
  | .headlines country _ => country

/-- The parameters that a download is meant to pass. -/
def parameters : Download → List (String × String)
  | .sources => [("language", "en"), ("apiKey", NewsApi.apiKey)]
  | .articles source =>
      [("sources", source.id), ("apiKey", NewsApi.apiKey), ("sortBy", "publishedAt")]
  | .headlines country limit =>
      [("country", country), ("apiKey", NewsApi.apiKey)] ++
        (limit.map fun limit => ("pageSize", toString limit)).toList

/-! ## The query as it is written -/

open NewsApi (addingPercentEncoding urlQueryAllowed)

def endpoint : Download → String
  | .sources => "https://newsapi.org/v2/sources"
  | .articles _ => "https://newsapi.org/v2/everything"
  | .headlines _ _ => "https://newsapi.org/v2/top-headlines"

/-- The names and values that are written into the query. -/
def written : Download → List (String × String)
  | .sources => [("language", "en"), ("apiKey", NewsApi.apiKey)]
  | .articles source =>
      [("sources", addingPercentEncoding source.id),
        ("apiKey", addingPercentEncoding NewsApi.apiKey), ("sortBy", "publishedAt")]
  | .headlines country limit =>
      [("country", addingPercentEncoding country),
        ("apiKey", addingPercentEncoding NewsApi.apiKey)] ++
        (limit.map fun limit => ("pageSize", toString limit)).toList

theorem urlText_eq (download : Download) :
    download.urlText = download.endpoint ++ "?" ++ write download.written := by
  have hkey : "&apiKey=" = "&" ++ "apiKey" ++ "=" := by decide +kernel
  cases download with
  | sources =>
      have hurl : NewsApi.sourcesURL =
          "https://newsapi.org/v2/sources" ++ "?" ++ ("language" ++ "=" ++ "en" ++ "&" ++
            ("apiKey" ++ "=" ++ NewsApi.apiKey)) := by decide +kernel
      exact hurl
  | articles source =>
      have hname : "?sources=" = "?" ++ "sources" ++ "=" := by decide +kernel
      have hsort : "&sortBy=publishedAt" = "&" ++ "sortBy" ++ "=" ++ "publishedAt" := by
        decide +kernel
      unfold urlText NewsApi.articlesURL endpoint written
      dsimp only [write]
      rw [hname, hkey, hsort]
      simp only [String.append_assoc]
  | headlines country limit =>
      have hname : "?country=" = "?" ++ "country" ++ "=" := by decide +kernel
      have hsize : "&pageSize=" = "&" ++ "pageSize" ++ "=" := by decide +kernel
      unfold urlText NewsApi.headlinesURL endpoint written
      rw [hname, hkey, hsize]
      cases limit with
      | none =>
          dsimp only [write, List.cons_append, List.nil_append, Option.map_none, Option.toList_none]
          simp only [String.append_assoc, String.append_empty]
      | some limit =>
          dsimp only [write, List.cons_append, List.nil_append, Option.map_some, Option.toList_some]
          simp only [String.append_assoc]

/-! ## The characters of the query -/

/-- A decimal number has none of the characters that mean something in a query. -/
theorem not_mem_limit {char : Char} (hdigit : char.isDigit = false) (hminus : char ≠ '-')
    (limit : Int64) : char ∉ (toString limit).toList := by
  intro hmem
  change char ∈ (toString limit.toInt).toList at hmem
  generalize limit.toInt = value at hmem
  cases value with
  | ofNat magnitude =>
      have hfound : char.isDigit = true := NewsApi.isDigit_of_mem_toString hmem
      exact absurd (hdigit.symm.trans hfound) (by simp)
  | negSucc magnitude =>
      change char ∈ ("-" ++ toString (magnitude + 1)).toList at hmem
      rw [String.toList_append, List.mem_append] at hmem
      rcases hmem with hsign | hmagnitude
      · exact hminus (List.mem_singleton.mp hsign)
      · exact absurd (hdigit.symm.trans (NewsApi.isDigit_of_mem_toString hmagnitude)) (by simp)

theorem ampersand_mem_encoded (text : String) :
    '&' ∈ (addingPercentEncoding text).toList ↔ '&' ∈ text.toList := by
  have hallowed : urlQueryAllowed '&' = true := by decide
  rw [addingPercentEncoding, PercentEncoding.mem_encode_iff (by decide) (by decide),
    and_iff_left hallowed]

theorem hash_not_mem_encoded (text : String) : '#' ∉ (addingPercentEncoding text).toList := by
  have hnotAllowed : urlQueryAllowed '#' = false := by decide
  rw [addingPercentEncoding, PercentEncoding.mem_encode_iff (by decide) (by decide), hnotAllowed]
  exact fun h => Bool.false_ne_true h.2

theorem hash_not_mem_written (download : Download) :
    ∀ parameter ∈ download.written, '#' ∉ parameter.1.toList ∧ '#' ∉ parameter.2.toList := by
  cases download with
  | sources =>
      rw [written, List.forall_mem_cons, List.forall_mem_singleton]
      exact ⟨by decide, by decide⟩
  | articles source =>
      have hname : '#' ∉ "sources".toList := by decide
      rw [written, List.forall_mem_cons, List.forall_mem_cons, List.forall_mem_singleton]
      exact ⟨⟨hname, hash_not_mem_encoded _⟩, ⟨by decide, hash_not_mem_encoded _⟩, by decide⟩
  | headlines country limit =>
      have hname : '#' ∉ "country".toList := by decide
      have hsize : '#' ∉ "pageSize".toList := by decide
      rw [written, List.forall_mem_append, List.forall_mem_cons, List.forall_mem_singleton]
      refine ⟨⟨⟨hname, hash_not_mem_encoded _⟩, ⟨by decide, hash_not_mem_encoded _⟩⟩, ?_⟩
      cases limit with
      | none => exact fun _ hmem => absurd hmem List.not_mem_nil
      | some limit =>
          rw [Option.map_some, Option.toList_some, List.forall_mem_singleton]
          exact ⟨hsize, not_mem_limit (by decide) (by decide) limit⟩

/-- The query is what is written into it, and nothing of the argument ends it. -/
theorem query_urlText (download : Download) :
    QueryString.query download.urlText.toList = ['&'].intercalate (download.written.map part) := by
  have hquestion : "?".toList = ['?'] := by decide
  have hendpoint : '?' ∉ download.endpoint.toList ∧ '#' ∉ download.endpoint.toList := by
    have hendpoints : ∀ text ∈ NewsApi.endpoints, '?' ∉ text.toList ∧ '#' ∉ text.toList := by
      decide
    refine hendpoints _ ?_
    cases download <;> simp [endpoint, NewsApi.endpoints]
  have hrest : '#' ∉ (write download.written).toList := by
    intro hmem
    rcases mem_write hmem with hequals | hampersand | ⟨parameter, hparameter, hfound⟩
    · exact absurd hequals (by decide)
    · exact absurd hampersand (by decide)
    · obtain ⟨hname, hvalue⟩ := download.hash_not_mem_written parameter hparameter
      exact hfound.elim hname hvalue
  rw [download.urlText_eq, String.toList_append, String.toList_append, hquestion,
    List.append_assoc, List.singleton_append, query_append hendpoint hrest, write_toList]

/-! ## Which arguments arrive -/

theorem carries_encoded {name : String}
    (hname : '=' ∉ name.toList ∧ '&' ∉ name.toList ∧ '%' ∉ name.toList) {text : String}
    (hampersand : '&' ∉ text.toList) :
    Carries (part (name, addingPercentEncoding text)) (name, text) :=
  .of_decoded hname (mt (ampersand_mem_encoded text).mp hampersand)
    (PercentEncoding.decode_encode NewsApi.percent_not_allowed text)

theorem carries_plain {name : String}
    (hname : '=' ∉ name.toList ∧ '&' ∉ name.toList ∧ '%' ∉ name.toList) {text : String}
    (htext : '&' ∉ text.toList ∧ '%' ∉ text.toList) : Carries (part (name, text)) (name, text) :=
  .of_decoded hname htext.1 (PercentEncoding.decode_of_plain htext.2)

/-- Each parameter is carried by its part of the query. -/
theorem written_carries (download : Download) (hargument : '&' ∉ download.argument.toList) :
    List.Forall₂ Carries (download.written.map part) download.parameters := by
  have hkey : Carries (part ("apiKey", addingPercentEncoding NewsApi.apiKey))
      ("apiKey", NewsApi.apiKey) := carries_encoded (by decide) (by decide)
  cases download with
  | sources =>
      have hlanguage : Carries (part ("language", "en")) ("language", "en") :=
        carries_plain (by decide) (by decide)
      have hplainKey : Carries (part ("apiKey", NewsApi.apiKey)) ("apiKey", NewsApi.apiKey) :=
        carries_plain (by decide) (by decide)
      exact .cons hlanguage (.cons hplainKey .nil)
  | articles source =>
      have hsort : Carries (part ("sortBy", "publishedAt")) ("sortBy", "publishedAt") :=
        carries_plain (by decide) (by decide)
      exact .cons (carries_encoded (by decide) hargument) (.cons hkey (.cons hsort .nil))
  | headlines country limit =>
      refine .cons (carries_encoded (by decide) hargument) (.cons hkey ?_)
      cases limit with
      | none => exact .nil
      | some limit =>
          have hlimit : Carries (part ("pageSize", toString limit)) ("pageSize", toString limit) :=
            carries_plain (by decide) ⟨not_mem_limit (by decide) (by decide) limit,
              not_mem_limit (by decide) (by decide) limit⟩
          exact .cons hlimit .nil

/-- An ampersand in the argument makes one parameter more than was meant. -/
theorem parameters_of_ampersand {download : Download} (hampersand : '&' ∈ download.argument.toList)
    {found : List (String × String)} (hfound : QueryString.parameters download.urlText = some found) :
    download.parameters.length < found.length := by
  have hpart : ∃ part' ∈ download.written.map part, '&' ∈ part' := by
    cases download with
    | sources => exact absurd hampersand List.not_mem_nil
    | articles source =>
        refine ⟨_, List.mem_cons_self, List.mem_append_right _ (List.mem_cons_of_mem _ ?_)⟩
        exact (ampersand_mem_encoded source.id).mpr hampersand
    | headlines country limit =>
        refine ⟨_, List.mem_cons_self, List.mem_append_right _ (List.mem_cons_of_mem _ ?_)⟩
        exact (ampersand_mem_encoded country).mpr hampersand
  obtain ⟨part', hmem, hinside⟩ := hpart
  have hlength : download.parameters.length = (download.written.map part).length := by
    cases download with
    | sources => rfl
    | articles source => rfl
    | headlines country limit => cases limit <;> rfl
  rw [hlength]
  exact length_parameters download.query_urlText hmem hinside hfound

/-- The service reads the parameters that were meant exactly if the argument
has no ampersand. -/
theorem arguments_arrive_iff (download : Download) :
    QueryString.parameters download.urlText = some download.parameters ↔
      '&' ∉ download.argument.toList := by
  constructor
  · intro hfound hampersand
    exact absurd (parameters_of_ampersand hampersand hfound) (Nat.lt_irrefl _)
  · intro hargument
    have hne : download.written.map part ≠ [] := by
      cases download <;> exact List.cons_ne_nil _ _
    exact parameters_of_carries download.query_urlText hne (download.written_carries hargument)

/-- A source whose identifier brings a parameter of its own. -/
theorem ampersand_adds_parameter :
    ¬ ∀ source : Source, source.id ≠ "" →
      QueryString.parameters (urlText (.articles source)) = some (parameters (.articles source)) := by
  intro harrive
  have hread := harrive
    { id := "bbc&language=de", name := "", desc := "", category := "", language := "",
      country := "" } (by decide)
  exact absurd (parameters_of_ampersand (by decide) hread) (Nat.lt_irrefl _)

end Download

end NewsDay
