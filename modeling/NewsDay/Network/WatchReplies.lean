import NewsDay.Models.Restoring
import NewsDay.Network.WatchServer

/-! # What the server reads and what it replies

Which messages the server understands, as a relation between a message and what
it leads to; and what its callbacks reply, as a function of the result alone.
Neither depends on what the process has archived before.
-/

namespace NewsDay

open Foundation KeyedArchive

variable [Foundation]

namespace WatchServer

/-- The text under `request` is this one. -/
def Named (message : Message) (name : String) : Prop :=
  sameString (requestText message) name = true

def kinds : List String := ["sources", "articles", "headlines", "image"]

/-- The messages that get past the guards, and what they lead to. -/
inductive Reads (modulePrefix : String) (message : Message) : Handling → Prop
  | sources (hname : Named message "sources") :
      Reads modulePrefix message (.news .getSources .sources)
  | articles (source : Source) (data : Data) (hname : Named message "articles")
      (hdata : (message.value "source").bind AnyValue.asData = some data)
      (hsource : source.ArchivedIn modulePrefix data) :
      Reads modulePrefix message (.news (.getArticles source) .articles)
  | headlines (country : String) (limit : Int64) (hname : Named message "headlines")
      (hcountry : (message.value "country").bind AnyValue.asString = some country)
      (hlimit : (message.value "limit").bind AnyValue.asInt = some limit) :
      Reads modulePrefix message (.news (.getHeadlines country (some limit)) .articles)
  | image (urlText : String) (url : URL) (hname : Named message "image")
      (htext : (message.value "url").bind AnyValue.asString = some urlText)
      (hurl : urlFromString urlText = some url) :
      Reads modulePrefix message (.retrieveImage url)
  | unrecognized (hname : ∀ name ∈ kinds, ¬ Named message name) :
      Reads modulePrefix message (.replied unrecognized)

/-- A message has one name. -/
theorem Named.other {message : Message} {name other : String} (hname : Named message name)
    (hmem : name ∈ kinds) (hother : other ∈ kinds) (hne : name ≠ other) :
    sameString (requestText message) other = false := by
  have hascii : ∀ kind ∈ kinds, isAscii kind = true := List.all_eq_true.mp (by decide)
  rw [← Bool.not_eq_true]
  intro hsame
  have hcanonical := (sameString_iff.mp hname).symm.trans (sameString_iff.mp hsame)
  rw [canonical_ascii name (hascii name hmem), canonical_ascii other (hascii other hother)]
    at hcanonical
  exact hne hcanonical

variable {modulePrefix : String} {tables : ModelTables}

/-- What the server reads does not depend on its class tables. -/
theorem didReceiveMessage_reads (htables : RegisteredTables modulePrefix tables)
    {message : Message} {tables' : ModelTables} {handling : Handling}
    (hmessage : didReceiveMessage message tables = .ok (tables', handling)) :
    RegisteredTables modulePrefix tables' ∧
      (handling = .dropped ∨ Reads modulePrefix message handling) := by
  unfold didReceiveMessage at hmessage
  dsimp only at hmessage
  split at hmessage
  next hsources =>
    obtain ⟨rfl, rfl⟩ := Prod.mk.inj (Except.ok.inj hmessage)
    exact ⟨htables, .inr (.sources hsources)⟩
  next hsources =>
  split at hmessage
  next harticles =>
    obtain ⟨⟨tables'', found⟩, hfound, hmessage⟩ := bind_eq_ok hmessage
    obtain ⟨hregistered, hsource⟩ := Source.keyedUnarchive_registered htables hfound
    cases found with
    | none =>
        obtain ⟨rfl, rfl⟩ := Prod.mk.inj (Except.ok.inj hmessage)
        exact ⟨hregistered, .inl rfl⟩
    | some source =>
        obtain ⟨rfl, rfl⟩ := Prod.mk.inj (Except.ok.inj hmessage)
        obtain ⟨data, hdata, harchived⟩ := hsource source rfl
        exact ⟨hregistered, .inr (.articles source data harticles hdata harchived)⟩
  next harticles =>
  split at hmessage
  next hheadlines =>
    split at hmessage
    · obtain ⟨rfl, rfl⟩ := Prod.mk.inj (Except.ok.inj hmessage)
      exact ⟨htables, .inl rfl⟩
    next country hcountry =>
      split at hmessage
      · obtain ⟨rfl, rfl⟩ := Prod.mk.inj (Except.ok.inj hmessage)
        exact ⟨htables, .inl rfl⟩
      next limit hlimit =>
        obtain ⟨rfl, rfl⟩ := Prod.mk.inj (Except.ok.inj hmessage)
        exact ⟨htables, .inr (.headlines country limit hheadlines hcountry hlimit)⟩
  next hheadlines =>
  split at hmessage
  next himage =>
    split at hmessage
    · obtain ⟨rfl, rfl⟩ := Prod.mk.inj (Except.ok.inj hmessage)
      exact ⟨htables, .inl rfl⟩
    next urlText htext =>
      split at hmessage
      · obtain ⟨rfl, rfl⟩ := Prod.mk.inj (Except.ok.inj hmessage)
        exact ⟨htables, .inl rfl⟩
      next url hurl =>
        obtain ⟨rfl, rfl⟩ := Prod.mk.inj (Except.ok.inj hmessage)
        exact ⟨htables, .inr (.image urlText url himage htext hurl)⟩
  next himage =>
    obtain ⟨rfl, rfl⟩ := Prod.mk.inj (Except.ok.inj hmessage)
    refine ⟨htables, .inr (.unrecognized ?_)⟩
    simp only [kinds, List.forall_mem_cons, List.not_mem_nil, IsEmpty.forall_iff, implies_true,
      and_true]
    exact ⟨hsources, harticles, hheadlines, himage⟩

/-- A message that the server understands is handled as it reads. -/
theorem Reads.didReceiveMessage {message : Message} {handling : Handling}
    (hreads : Reads modulePrefix message handling)
    (htables : RegisteredTables modulePrefix tables) :
    ∃ tables', WatchServer.didReceiveMessage message tables = .ok (tables', handling) := by
  cases hreads with
  | sources hname => exact ⟨tables, if_pos hname⟩
  | articles source data hname hdata hsource =>
      have hsources : sameString _ "sources" = false :=
        hname.other (by decide) (by decide) (by decide)
      obtain ⟨tables', hread⟩ := (Source.keyedUnarchive_iff htables data source).mpr hsource
      refine ⟨tables', ?_⟩
      simp only [WatchServer.didReceiveMessage, hsources, show sameString _ _ = true from hname,
        hdata, hread, if_true, bind, Except.bind]
      rfl
  | headlines country limit hname hcountry hlimit =>
      have hsources : sameString _ "sources" = false :=
        hname.other (by decide) (by decide) (by decide)
      have harticles : sameString _ "articles" = false :=
        hname.other (by decide) (by decide) (by decide)
      refine ⟨tables, ?_⟩
      simp only [WatchServer.didReceiveMessage, hsources, harticles,
        show sameString _ _ = true from hname, hcountry, hlimit, if_true]
      rfl
  | image urlText url hname htext hurl =>
      have hsources : sameString _ "sources" = false :=
        hname.other (by decide) (by decide) (by decide)
      have harticles : sameString _ "articles" = false :=
        hname.other (by decide) (by decide) (by decide)
      have hheadlines : sameString _ "headlines" = false :=
        hname.other (by decide) (by decide) (by decide)
      refine ⟨tables, ?_⟩
      simp only [WatchServer.didReceiveMessage, hsources, harticles, hheadlines,
        show sameString _ _ = true from hname, htext, hurl, if_true]
      rfl
  | unrecognized hname =>
      have hother : ∀ name ∈ kinds, sameString (requestText message) name = false :=
        fun name hmem => Bool.eq_false_iff.mpr (hname name hmem)
      refine ⟨tables, ?_⟩
      simp only [WatchServer.didReceiveMessage, hother "sources" (by decide),
        hother "articles" (by decide), hother "headlines" (by decide), hother "image" (by decide)]
      rfl

/-- A message leads to one thing. -/
theorem Reads.unique {message : Message} {first second : Handling}
    (hfirst : Reads modulePrefix message first) (hsecond : Reads modulePrefix message second) :
    first = second := by
  obtain ⟨tables, hread⟩ := hfirst.didReceiveMessage (.start modulePrefix)
  obtain ⟨tables', hread'⟩ := hsecond.didReceiveMessage (.start modulePrefix)
  rw [hread] at hread'
  exact (Prod.mk.inj (Except.ok.inj hread')).2

/-! ## Replies -/

/-- What a callback replies to a result, if it replies. -/
def Callback.replyFor (result : Option AnyValue) : Callback → Option Message
  | .sources => (result.bind AnyValue.asCategorizedSources).bind fun sources =>
      if sources.details.length < 2 ^ 31 then
        (archivedData (sources.archived "CategorizedSources")).toOption.map fun data =>
          [("sources", .data data)]
      else none
  | .articles => (result.bind (AnyValue.asArray AnyValue.asArticle)).bind fun articles =>
      (archivedData (.array (articles.map (Article.archived "Article")))).toOption.map fun data =>
        [("articles", .data data)]

/-- A callback replies as a function of the result; where its archive would
need a longer count than there is, it stops the process instead. -/
theorem Callback.reply_spec (htables : RegisteredTables modulePrefix tables) (callback : Callback)
    (result : Option AnyValue) :
    (∃ tables', callback.reply result tables = .ok (tables', callback.replyFor result) ∧
      RegisteredTables modulePrefix tables') ∨
      ∃ trap, callback.reply result tables = .error trap ∧ callback.replyFor result = none := by
  cases callback with
  | sources =>
      simp only [Callback.reply, sourcesReply, replyFor]
      cases hsources : result.bind AnyValue.asCategorizedSources with
      | none => exact .inl ⟨tables, rfl, htables⟩
      | some sources =>
          by_cases hcount : sources.details.length < 2 ^ 31
          · left
            have hregistered := (htables.setClassName "CategorizedSources"
              .categorizedSources).setClassName "Source" .source
            simp only [sources.keyedArchive_eq tables hcount, bind, Except.bind, Option.bind,
              if_pos hcount]
            exact ⟨_, rfl, hregistered⟩
          · -- `Int32(details.count)` traps
            right
            have htrap := sources.keyedArchive_overflow tables (by omega)
            simp only [htrap, bind, Except.bind, Option.bind, if_neg hcount]
            exact ⟨_, rfl, trivial⟩
  | articles =>
      simp only [Callback.reply, articlesReply, replyFor]
      cases harticles : result.bind (AnyValue.asArray AnyValue.asArticle) with
      | none => exact .inl ⟨tables, rfl, htables⟩
      | some articles =>
          left
          have hregistered := htables.setClassName "Article" .article
          simp only [Article.keyedArchivedArray_eq, bind, Except.bind, Option.bind]
          exact ⟨_, rfl, hregistered⟩

/-- The results that a callback can archive: of the expected type, not too
long, and accepted by the archiver. -/
def Callback.Archivable (result : Option AnyValue) : Callback → Prop
  | .sources => ∃ sources data, result.bind AnyValue.asCategorizedSources = some sources ∧
      sources.details.length < 2 ^ 31 ∧
        archivedData (sources.archived "CategorizedSources") = .ok data
  | .articles => ∃ articles data,
      result.bind (AnyValue.asArray AnyValue.asArticle) = some articles ∧
        archivedData (.array (articles.map (Article.archived "Article"))) = .ok data

omit [Foundation] in
theorem toOption_eq_some {Value Problem : Type} {outcome : Except Problem Value} {value : Value} :
    outcome.toOption = some value ↔ outcome = .ok value := by
  cases outcome <;> simp [Except.toOption]

/-- Where a reply with sources comes from. -/
theorem Callback.replyFor_sources {result : Option AnyValue} {reply : Message}
    (hreply : Callback.sources.replyFor result = some reply) :
    ∃ sources data, result = some (.categorizedSources sources) ∧
      sources.details.length < 2 ^ 31 ∧
        archivedData (sources.archived "CategorizedSources") = .ok data ∧
          reply = [("sources", .data data)] := by
  obtain ⟨sources, hsources, hreply⟩ := Option.bind_eq_some_iff.mp hreply
  obtain ⟨hcount, hreply⟩ := Option.ite_none_right_eq_some.mp hreply
  obtain ⟨data, hdata, rfl⟩ := Option.map_eq_some_iff.mp hreply
  obtain ⟨value, rfl, hvalue⟩ := Option.bind_eq_some_iff.mp hsources
  obtain rfl := AnyValue.asCategorizedSources_eq_some.mp hvalue
  exact ⟨sources, data, rfl, hcount, toOption_eq_some.mp hdata, rfl⟩

/-- Where a reply with articles comes from. -/
theorem Callback.replyFor_articles {result : Option AnyValue} {reply : Message}
    (hreply : Callback.articles.replyFor result = some reply) :
    ∃ articles data, result = some (.ofArticles articles) ∧
      archivedData (.array (articles.map (Article.archived "Article"))) = .ok data ∧
        reply = [("articles", .data data)] := by
  obtain ⟨articles, harticles, hreply⟩ := Option.bind_eq_some_iff.mp hreply
  obtain ⟨data, hdata, rfl⟩ := Option.map_eq_some_iff.mp hreply
  obtain ⟨value, rfl, hvalue⟩ := Option.bind_eq_some_iff.mp harticles
  obtain rfl := AnyValue.asArray_asArticle_eq_some.mp hvalue
  exact ⟨articles, data, rfl, toOption_eq_some.mp hdata, rfl⟩

theorem Callback.replyFor_isSome_iff (callback : Callback) (result : Option AnyValue) :
    (callback.replyFor result).isSome ↔ callback.Archivable result := by
  rw [Option.isSome_iff_exists]
  cases callback with
  | sources =>
      constructor
      · rintro ⟨reply, hreply⟩
        obtain ⟨sources, data, rfl, hcount, hdata, rfl⟩ := replyFor_sources hreply
        exact ⟨sources, data, rfl, hcount, hdata⟩
      · rintro ⟨sources, data, hsources, hcount, hdata⟩
        refine ⟨[("sources", .data data)], ?_⟩
        simp only [replyFor, hsources, Option.bind_some, if_pos hcount, hdata]
        rfl
  | articles =>
      constructor
      · rintro ⟨reply, hreply⟩
        obtain ⟨articles, data, rfl, hdata, rfl⟩ := replyFor_articles hreply
        exact ⟨articles, data, AnyValue.asArray_ofArticles articles, hdata⟩
      · rintro ⟨articles, data, harticles, hdata⟩
        refine ⟨[("articles", .data data)], ?_⟩
        simp only [replyFor, harticles, Option.bind_some, hdata]
        rfl

end WatchServer

end NewsDay
