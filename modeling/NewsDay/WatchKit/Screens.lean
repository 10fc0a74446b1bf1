import NewsDay.Models.Categories
import NewsDay.Network.ImageFromPhone

/-! # The screens of the watch

The source screen lists all sources, a row of it opens the articles of its
source, and a row of those opens the article. Each screen asks the phone once,
when it awakes, and is filled by the callback that it registers.
-/

namespace NewsDay

open Foundation

/-! ## Tables -/

/-- The controller of a row: the model object that the row shows, and the text
of its label. -/
structure RowController (Item : Type) where
  item : Option Item
  label : String
deriving DecidableEq

section Tables

variable {Item : Type}

/-- Setting the object of a row; its observer sets the text of the label. -/
def RowController.setItem (text : Item → String) (row : RowController Item) :
    Option Item → RowController Item
  | none => { row with item := none }
  | some item => { item := some item, label := text item }

/-- The row that shows the object. -/
def RowController.showing (text : Item → String) (item : Item) : RowController Item :=
  { item := some item, label := text item }

variable (text : Item → String) (items : List Item)

/-- One turn of the loop of `populateTable(with:)`. -/
def populateRow (rows : List (RowController Item)) (index : Nat) :
    Except Trap (List (RowController Item)) :=
  match rows[index]? with
  -- `continue`
  | none => .ok rows
  | some rowController => do
      let item ← subscript items index
      return rows.set index (rowController.setItem text (some item))

/-- `populateTable(with:)`, from `setNumberOfRows(_:withRowType:)` on: the rows
that it makes have the label of the storyboard. -/
def populateRows (label : String) : Except Trap (List (RowController Item)) :=
  (List.range items.length).foldlM (populateRow text items)
    (List.replicate items.length ⟨none, label⟩)

/-- After some turns of the loop the first rows show their objects. -/
theorem populateRows_upTo (label : String) {count : Nat} (hcount : count ≤ items.length) :
    (List.range count).foldlM (populateRow text items)
        (List.replicate items.length ⟨none, label⟩) =
      .ok ((items.take count).map (.showing text) ++
        List.replicate (items.length - count) ⟨none, label⟩) := by
  induction count with
  | zero => rfl
  | succ count ih =>
      have hitem := List.getElem?_eq_getElem hcount
      have hlength : ((items.take count).map (RowController.showing text)).length = count := by
        rw [List.length_map, List.length_take, Nat.min_eq_left (Nat.le_of_succ_le hcount)]
      have hleft : items.length - count = (items.length - (count + 1)) + 1 := by omega
      have hrow : ((items.take count).map (RowController.showing text) ++
          List.replicate (items.length - count) ⟨none, label⟩)[count]? = some ⟨none, label⟩ := by
        rw [List.getElem?_append_right (Nat.le_of_eq hlength), hlength, Nat.sub_self, hleft]
        rfl
      rw [List.range_succ, List.foldlM_append, ih (Nat.le_of_succ_le hcount)]
      simp only [bind, Except.bind, List.foldlM_cons, List.foldlM_nil, populateRow, hrow,
        subscript_of_getElem? hitem, pure, Except.pure, RowController.setItem]
      rw [List.set_append_right _ _ (Nat.le_of_eq hlength), hlength, Nat.sub_self, hleft,
        List.replicate_succ, List.set_cons_zero, List.take_add_one, hitem, List.map_append,
        List.append_assoc]
      rfl

/-- The loop ends, and every row shows the object at its place. -/
theorem populateRows_eq (label : String) :
    populateRows text items label = .ok (items.map (.showing text)) := by
  have hall := populateRows_upTo text items label (Nat.le_refl items.length)
  rwa [List.take_length, Nat.sub_self, List.replicate_zero, List.append_nil] at hall

end Tables

variable [Foundation]

/-- `class SourceRowController`. -/
abbrev SourceRowController := RowController Source

/-- `class ArticleRowController`. -/
abbrev ArticleRowController := RowController Article

/-! ## What is opened, and with what -/

/-- The controllers that a screen opens. -/
inductive ControllerName
  /-- The segue of the primary screen. -/
  | sourcesView
  | articlesView
  | articleDetailView
deriving DecidableEq

/-- `presentController(withName:context:)`. -/
structure Presentation where
  name : ControllerName
  context : Option AnyValue

/-- The button for sources of `PrimaryInterfaceController`. -/
def Presentation.sourcesTapped : Presentation := ⟨.sourcesView, none⟩

/-! ## Sources -/

/-- `class SourceInterfaceController`. -/
structure SourceInterfaceController where
  sources : Option (List Source) := none
  sourceTable : List SourceRowController := []

namespace SourceInterfaceController

variable (controller : SourceInterfaceController)

def populateTable (sources : List Source) : Except Trap SourceInterfaceController := do
  let sourceTable ← populateRows Source.name sources "Source"
  return { sources := some sources, sourceTable }

/-- `awake(withContext:)`, up to what it asks the phone for. -/
def awake : Option AnyValue → SourceInterfaceController × Option WatchRequest
  | _ => (controller, some .sources)

/-- The callback that `awake(withContext:)` registers. -/
def sourcesReceived (response : Option AnyValue) : Except Trap SourceInterfaceController :=
  match response with
  | some (.categorizedSources sources) => populateTable sources.flatten
  -- `flatten()` accesses an element that is no source
  | some (.uncheckedSources _ _) => .error .forcedCast
  | _ => .ok controller

/-- `table(_:didSelectRowAt:)`. -/
def didSelectRow (rowIndex : Int) : Except Trap (Option Presentation) :=
  match controller.sources with
  | none => .ok none
  | some sources => do
      let source ← subscript sources rowIndex
      return some ⟨.articlesView, some (.source source)⟩

/-- The screen that shows these sources. -/
def showing (sources : List Source) : SourceInterfaceController where
  sources := some sources
  sourceTable := sources.map (.showing Source.name)

omit [Foundation] in
theorem populateTable_eq (sources : List Source) :
    populateTable sources = .ok (showing sources) := by
  rw [populateTable, populateRows_eq]
  rfl

theorem sourcesReceived_eq (groups : CategorizedSources) :
    controller.sourcesReceived (some (.categorizedSources groups)) =
      .ok (.showing groups.flatten) :=
  populateTable_eq groups.flatten

end SourceInterfaceController

/-! ## Articles -/

/-- `class ArticleInterfaceController`. -/
structure ArticleInterfaceController where
  source : Option Source := none
  articles : List Article := []
  articleTable : List ArticleRowController := []

namespace ArticleInterfaceController

variable (controller : ArticleInterfaceController)

def populateTable (articles : List Article) : Except Trap ArticleInterfaceController := do
  let articleTable ← populateRows Article.title articles "Article Title"
  return { controller with articles, articleTable }

/-- `awake(withContext:)`, up to what it asks the phone for. -/
def awake (context : Option AnyValue) : ArticleInterfaceController × Option WatchRequest :=
  match context.bind AnyValue.asSource with
  | none => (controller, none)
  | some source => ({ controller with source := some source }, some (.articles source))

/-- The callback that `awake(withContext:)` registers. -/
def articlesReceived (response : Option AnyValue) : Except Trap ArticleInterfaceController :=
  match response.bind (AnyValue.asArray AnyValue.asArticle) with
  | none => .ok controller
  | some articles => controller.populateTable articles

/-- `table(_:didSelectRowAt:)`. -/
def didSelectRow (rowIndex : Int) : Except Trap (Option Presentation) := do
  let article ← subscript controller.articles rowIndex
  return some ⟨.articleDetailView, some (.article article)⟩

/-- The screen that shows these articles of the source. -/
def showing (source : Source) (articles : List Article) : ArticleInterfaceController where
  source := some source
  articles := articles
  articleTable := articles.map (.showing Article.title)

theorem populateTable_eq {source : Source} (hsource : controller.source = some source)
    (articles : List Article) :
    controller.populateTable articles = .ok (.showing source articles) := by
  rw [populateTable, populateRows_eq, showing, ← hsource]
  rfl

theorem articlesReceived_eq {source : Source} (hsource : controller.source = some source)
    (articles : List Article) :
    controller.articlesReceived (some (.ofArticles articles)) = .ok (.showing source articles) := by
  simp only [articlesReceived, Option.bind_some, AnyValue.asArray_ofArticles,
    controller.populateTable_eq hsource]

end ArticleInterfaceController

/-! ## An article -/

/-- `class ArticleDetailInterfaceController`, with the texts of its labels. -/
structure ArticleDetailInterfaceController where
  article : Option Article := none
  articleImage : WKInterfaceImage := ⟨none⟩
  articleTitle : String := "Title"
  articleContent : String := "Content"

namespace ArticleDetailInterfaceController

variable (controller : ArticleDetailInterfaceController)

/-- `awake(withContext:)`, given `UIImage(named:)`. -/
def awake (imageNamed : String → Option UIImage) (context : Option AnyValue) :
    ArticleDetailInterfaceController × Option WatchRequest :=
  match context.bind AnyValue.asArticle with
  | none => ({ controller with article := none }, none)
  | some article =>
      let (articleImage, request) :=
        match article.urlImage with
        | some urlImage => (controller.articleImage, some (.image urlImage))
        | none => (⟨imageNamed "news_white_default"⟩, none)
      ({ article := some article
         articleImage
         articleTitle := article.title
         articleContent := article.desc }, request)

/-- The callback that `imageFromPhone(url:)` registers. -/
def imageReceived (response : Option AnyValue) : Except Trap ArticleDetailInterfaceController := do
  let articleImage ← controller.articleImage.imageFromPhone response
  return { controller with articleImage }

/-- The screen that shows this article with this picture. -/
def showing (article : Article) (image : Option UIImage) : ArticleDetailInterfaceController where
  article := some article
  articleImage := ⟨image⟩
  articleTitle := article.title
  articleContent := article.desc

end ArticleDetailInterfaceController

/-! ## Screens -/

inductive Screen
  | sources (controller : SourceInterfaceController)
  | articles (controller : ArticleInterfaceController)
  | articleDetail (controller : ArticleDetailInterfaceController)

namespace Screen

/-- A new screen is given its context: what it is then, and what it asks for. -/
def awake (imageNamed : String → Option UIImage) (presentation : Presentation) :
    Screen × Option WatchRequest :=
  match presentation.name with
  | .sourcesView =>
      (SourceInterfaceController.awake {} presentation.context).map .sources id
  | .articlesView =>
      (ArticleInterfaceController.awake {} presentation.context).map .articles id
  | .articleDetailView =>
      (ArticleDetailInterfaceController.awake {} imageNamed presentation.context).map
        .articleDetail id

/-- The callback of a screen is invoked. -/
def received (response : Option AnyValue) : Screen → Except Trap Screen
  | .sources controller => (controller.sourcesReceived response).map .sources
  | .articles controller => (controller.articlesReceived response).map .articles
  | .articleDetail controller => (controller.imageReceived response).map .articleDetail

/-- The number of rows that can be selected. -/
def rowCount : Screen → Nat
  | .sources controller => controller.sourceTable.length
  | .articles controller => controller.articleTable.length
  | .articleDetail _ => 0

/-- `table(_:didSelectRowAt:)`. -/
def didSelectRow (rowIndex : Nat) : Screen → Except Trap (Option Presentation)
  | .sources controller => controller.didSelectRow rowIndex
  | .articles controller => controller.didSelectRow rowIndex
  | .articleDetail _ => .ok none

end Screen

end NewsDay
