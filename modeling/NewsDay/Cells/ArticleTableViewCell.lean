import Mathlib.Data.List.Nodup
import NewsDay.Foundation
import NewsDay.Library.Execution

/-! # Pictures in recycled cells

A cell is set up anew for each row that it comes to show. A row with a picture
starts a retrieval, which Kingfisher applies only while the identifier that it
has issued is still recorded on the image view; a row without one assigns the
default picture to the view and leaves the identifier as it was.
-/

namespace NewsDay

open Foundation

variable [Foundation]

/-- What an image view shows: a picture of the bundle or one that a retrieval
has brought. -/
inductive Picture
  | named (name : String) (image : UIImage)
  | retrieved (url : URL) (image : UIImage)

/-- `class UIImageView`, with the identifier that Kingfisher records on it. -/
structure UIImageView where
  image : Option Picture := none
  taskIdentifier : Option Nat := none

/-- A retrieval that has not ended, with the call of `setupArticleCell` that
has started it. -/
structure Retrieval where
  issuedIdentifier : Nat
  url : URL
  call : Nat

namespace UIImageView

/-- The view after `KingfisherWrapper.setImage(with:)` has started a retrieval,
with no placeholder and the default options. -/
def setImage (issuedIdentifier : Nat) : UIImageView where
  image := none
  taskIdentifier := some issuedIdentifier

/-- The completion handler that `setImage(with:)` passes to the retrieval. -/
def retrievalEnded (view : UIImageView) (retrieval : Retrieval) (result : Option UIImage) :
    UIImageView :=
  if view.taskIdentifier = some retrieval.issuedIdentifier then
    match result with
    | some image => { view with
        image := some (.retrieved retrieval.url image)
        taskIdentifier := none }
    | none => { view with taskIdentifier := none }
  else view

theorem retrievalEnded_of_current (view : UIImageView) {retrieval : Retrieval} (image : UIImage)
    (hcurrent : view.taskIdentifier = some retrieval.issuedIdentifier) :
    view.retrievalEnded retrieval (some image) =
      { view with image := some (.retrieved retrieval.url image), taskIdentifier := none } :=
  if_pos hcurrent

end UIImageView

/-- `class ArticleTableViewCell`. -/
structure ArticleTableViewCell where
  articleImage : UIImageView := {}
  articleTitle : Option String := none

/-- A cell while rows are recycled. -/
structure Recycling where
  cell : ArticleTableViewCell := {}
  /-- `Source.Identifier.current`, which all image views share. -/
  current : Nat := 0
  retrievals : List Retrieval := []
  /-- The URLs that `setupArticleCell` was called with. -/
  calls : List (Option URL) := []

namespace Recycling

variable (imageNamed : String → Option UIImage) (recycling : Recycling)

/-- `UIImage(named: "news_default.png")`. -/
def unavailableImage : Option Picture :=
  (imageNamed "news_default.png").map (.named "news_default.png")

/-- `setupArticleCell(imageUrl:title:)`. -/
def setupArticleCell (imageUrl : Option URL) (title : String) : Recycling :=
  match imageUrl with
  | some url =>
      let issuedIdentifier := recycling.current + 1
      { cell :=
          { articleImage := .setImage issuedIdentifier
            articleTitle := some title }
        current := issuedIdentifier
        retrievals := recycling.retrievals ++ [⟨issuedIdentifier, url, recycling.calls.length⟩]
        calls := recycling.calls ++ [imageUrl] }
  | none =>
      { recycling with
        cell :=
          { articleImage := { recycling.cell.articleImage with
              image := unavailableImage imageNamed }
            articleTitle := some title }
        calls := recycling.calls ++ [imageUrl] }

inductive Action
  | setupArticleCell (imageUrl : Option URL) (title : String)
  /-- A retrieval of this cell ends, with an image or without. -/
  | retrievalEnded (index : Nat) (result : Option UIImage)
  /-- Another image view is issued an identifier. -/
  | elsewhere

def step : Action → Option Recycling
  | .setupArticleCell imageUrl title => some (recycling.setupArticleCell imageNamed imageUrl title)
  | .retrievalEnded index result => recycling.retrievals[index]?.map fun retrieval =>
      { recycling with
        cell := { recycling.cell with
          articleImage := recycling.cell.articleImage.retrievalEnded retrieval result }
        retrievals := recycling.retrievals.eraseIdx index }
  | .elsewhere => some { recycling with current := recycling.current + 1 }

/-- The picture of the cell is that of the latest call. -/
inductive ShowsOwn : Prop
  | nothing (himage : recycling.cell.articleImage.image = none)
  | unavailable (hcall : recycling.calls.getLast? = some none)
      (himage : recycling.cell.articleImage.image = unavailableImage imageNamed)
  | retrieved (url : URL) (image : UIImage) (hcall : recycling.calls.getLast? = some (some url))
      (himage : recycling.cell.articleImage.image = some (.retrieved url image))

/-- No call after this one had a URL. -/
def Latest (calls : List (Option URL)) (call : Nat) : Prop :=
  ∀ (index : Nat) (url : URL), calls[index]? = some (some url) → index ≤ call

/-- The step brings no image of the last call with a URL while the latest call
had none. -/
def Timely (action : Action) : Prop :=
  ∀ (index : Nat) (image : UIImage) (retrieval : Retrieval),
    action = .retrievalEnded index (some image) →
      recycling.retrievals[index]? = some retrieval →
        Latest recycling.calls retrieval.call → recycling.calls.getLast? ≠ some none

/-- How the retrievals and the recorded identifier correspond to the calls. -/
structure Tracked (recycling : Recycling) : Prop where
  called : ∀ retrieval ∈ recycling.retrievals,
    recycling.calls[retrieval.call]? = some (some retrieval.url)
  issued : ∀ retrieval ∈ recycling.retrievals, retrieval.issuedIdentifier ≤ recycling.current
  distinct : (recycling.retrievals.map Retrieval.call).Nodup
  recorded : ∀ retrieval ∈ recycling.retrievals,
    recycling.cell.articleImage.taskIdentifier = some retrieval.issuedIdentifier ↔
      Latest recycling.calls retrieval.call

variable {imageNamed recycling} {next : Recycling}

theorem latest_concat_none {calls : List (Option URL)} {call : Nat} :
    Latest (calls ++ [none]) call ↔ Latest calls call := by
  simp [Latest, Execution.getElem?_concat_eq_some]

/-- A call with a URL is the last one of its kind. -/
theorem latest_concat_some {calls : List (Option URL)} {url : URL} {call : Nat} :
    Latest (calls ++ [some url]) call ↔ calls.length ≤ call := by
  constructor
  · intro hlatest
    exact hlatest calls.length url (Execution.getElem?_concat_eq_some.mpr (.inr ⟨rfl, rfl⟩))
  · intro hlength index url' hcall
    rcases Execution.getElem?_concat_eq_some.mp hcall with hold | ⟨rfl, -⟩
    · have hindex := (List.getElem?_eq_some_iff.mp hold).1
      omega
    · exact hlength

/-- The retrieval of the last call with a URL is of its URL. -/
theorem Latest.of_getLast? {calls : List (Option URL)} {call : Nat} (hlatest : Latest calls call)
    {url url' : URL} (hlast : calls.getLast? = some (some url))
    (hcall : calls[call]? = some (some url')) : url' = url := by
  rw [List.getLast?_eq_getElem?] at hlast
  have hle := hlatest _ _ hlast
  have hlt := (List.getElem?_eq_some_iff.mp hcall).1
  obtain rfl : call = calls.length - 1 := by omega
  exact Option.some.inj (Option.some.inj (hcall.symm.trans hlast))

theorem Tracked.start : Tracked {} where
  called := by simp
  issued := by simp
  distinct := by simp
  recorded := by simp

theorem Tracked.call_lt (htracked : recycling.Tracked) {retrieval : Retrieval}
    (hretrieval : retrieval ∈ recycling.retrievals) : retrieval.call < recycling.calls.length :=
  (List.getElem?_eq_some_iff.mp (htracked.called retrieval hretrieval)).1

/-- The earlier retrievals are of earlier calls, and their identifiers are not
recorded any more. -/
theorem Tracked.setImage (htracked : recycling.Tracked) (url : URL) (title : String) :
    (recycling.setupArticleCell imageNamed (some url) title).Tracked where
  called := by
    intro retrieval hretrieval
    rcases List.mem_append.mp hretrieval with hold | hnew
    · exact Execution.getElem?_concat_eq_some.mpr (.inl (htracked.called retrieval hold))
    · obtain rfl := List.mem_singleton.mp hnew
      exact Execution.getElem?_concat_eq_some.mpr (.inr ⟨rfl, rfl⟩)
  issued := by
    intro retrieval hretrieval
    rcases List.mem_append.mp hretrieval with hold | hnew
    · exact Nat.le_succ_of_le (htracked.issued retrieval hold)
    · obtain rfl := List.mem_singleton.mp hnew
      exact Nat.le_refl _
  distinct := by
    simp only [Recycling.setupArticleCell, List.map_append, List.map_cons, List.map_nil]
    refine List.nodup_append.mpr ⟨htracked.distinct, List.nodup_singleton _, ?_⟩
    rintro call hcall _ hnew rfl
    obtain ⟨retrieval, hretrieval, rfl⟩ := List.mem_map.mp hcall
    exact Nat.ne_of_lt (htracked.call_lt hretrieval) (List.mem_singleton.mp hnew)
  recorded := by
    intro retrieval hretrieval
    simp only [Recycling.setupArticleCell, UIImageView.setImage, latest_concat_some]
    rcases List.mem_append.mp hretrieval with hold | hnew
    · have hissued := htracked.issued retrieval hold
      refine iff_of_false ?_ (Nat.not_le_of_lt (htracked.call_lt hold))
      intro hsame
      have hidentifier := Option.some.inj hsame
      omega
    · obtain rfl := List.mem_singleton.mp hnew
      exact iff_of_true rfl (Nat.le_refl _)

theorem Tracked.setupArticleCell (htracked : recycling.Tracked) (imageUrl : Option URL)
    (title : String) : (recycling.setupArticleCell imageNamed imageUrl title).Tracked := by
  cases imageUrl with
  | some url => exact htracked.setImage url title
  | none =>
      refine ⟨?_, htracked.issued, htracked.distinct, ?_⟩
      · intro retrieval hretrieval
        exact Execution.getElem?_concat_eq_some.mpr (.inl (htracked.called retrieval hretrieval))
      · intro retrieval hretrieval
        exact (htracked.recorded retrieval hretrieval).trans latest_concat_none.symm

theorem Tracked.retrievalEnded (htracked : recycling.Tracked) {index : Nat}
    {result : Option UIImage} (hnext : recycling.step imageNamed (.retrievalEnded index result) =
      some next) : next.Tracked := by
  obtain ⟨ended, hended, rfl⟩ := Option.map_eq_some_iff.mp hnext
  have hold : ∀ retrieval ∈ recycling.retrievals.eraseIdx index,
      retrieval ∈ recycling.retrievals := fun _ => List.mem_of_mem_eraseIdx
  have hother : ∀ retrieval ∈ recycling.retrievals.eraseIdx index,
      retrieval.call ≠ ended.call := by
    intro retrieval hretrieval hsame
    obtain ⟨position, hposition, hfound⟩ := List.mem_eraseIdx_iff_getElem?.mp hretrieval
    have hlength : position < (recycling.retrievals.map Retrieval.call).length := by
      rw [List.length_map]
      exact (List.getElem?_eq_some_iff.mp hfound).1
    refine hposition ((List.getElem?_inj hlength htracked.distinct).mp ?_)
    rw [List.getElem?_map, List.getElem?_map, hfound, hended, Option.map_some, Option.map_some,
      hsame]
  refine ⟨?_, ?_, ?_, ?_⟩
  · exact fun retrieval hretrieval => htracked.called retrieval (hold retrieval hretrieval)
  · exact fun retrieval hretrieval => htracked.issued retrieval (hold retrieval hretrieval)
  · exact htracked.distinct.sublist ((List.eraseIdx_sublist _ _).map _)
  · intro retrieval hretrieval
    have hrecorded := htracked.recorded retrieval (hold retrieval hretrieval)
    unfold UIImageView.retrievalEnded
    split
    next hcurrent =>
      -- the identifier is that of the retrieval that has ended, so the others are not the latest
      have hmem := List.mem_of_getElem? hended
      have hlatest := (htracked.recorded ended hmem).mp hcurrent
      refine iff_of_false ?_ ?_
      · cases result <;> simp
      · intro hlatest'
        have hfirst := hlatest _ _ (htracked.called retrieval (hold retrieval hretrieval))
        have hsecond := hlatest' _ _ (htracked.called ended hmem)
        exact hother retrieval hretrieval (Nat.le_antisymm hfirst hsecond)
    next => exact hrecorded

theorem Tracked.step (htracked : recycling.Tracked) {action : Action}
    (hnext : recycling.step imageNamed action = some next) : next.Tracked := by
  cases action with
  | setupArticleCell imageUrl title =>
      obtain rfl := Option.some.inj hnext
      exact htracked.setupArticleCell imageUrl title
  | retrievalEnded index result => exact htracked.retrievalEnded hnext
  | elsewhere =>
      obtain rfl := Option.some.inj hnext
      refine { htracked with issued := ?_ }
      intro retrieval hretrieval
      exact Nat.le_succ_of_le (htracked.issued retrieval hretrieval)

/-! ## Which pictures are shown -/

/-- What is shown matters, and which call was the latest. -/
theorem ShowsOwn.congr (hshows : recycling.ShowsOwn imageNamed)
    (hcalls : next.calls = recycling.calls)
    (hsame : next.cell.articleImage.image = recycling.cell.articleImage.image) :
    next.ShowsOwn imageNamed := by
  cases hshows with
  | nothing himage => exact .nothing (hsame.trans himage)
  | unavailable hcall himage => exact .unavailable (hcalls ▸ hcall) (hsame.trans himage)
  | retrieved url image hcall himage =>
      exact .retrieved url image (hcalls ▸ hcall) (hsame.trans himage)

/-- A picture that was retrieved is shown rightly while its URL is that of the
latest call. -/
theorem showsOwn_of_retrieved {url : URL} {image : UIImage}
    (himage : next.cell.articleImage.image = some (.retrieved url image)) :
    next.ShowsOwn imageNamed ↔ next.calls.getLast? = some (some url) := by
  constructor
  · intro hshows
    cases hshows with
    | nothing hnone => exact absurd (himage.symm.trans hnone) (Option.some_ne_none _)
    | unavailable hcall hnamed =>
        obtain ⟨_, -, hpicture⟩ := Option.map_eq_some_iff.mp (hnamed.symm.trans himage)
        exact absurd hpicture nofun
    | retrieved url' image' hcall himage' =>
        obtain ⟨rfl, -⟩ := Picture.retrieved.inj (Option.some.inj (himage.symm.trans himage'))
        exact hcall
  · exact fun hcall => .retrieved url image hcall himage

/-- A retrieval that ends leaves the picture alone, or puts its own there. -/
theorem showsOwn_retrievalEnded_iff (htracked : recycling.Tracked)
    (hshows : recycling.ShowsOwn imageNamed) {index : Nat} {result : Option UIImage}
    (hnext : recycling.step imageNamed (.retrievalEnded index result) = some next) :
    next.ShowsOwn imageNamed ↔ recycling.Timely (.retrievalEnded index result) := by
  obtain ⟨ended, hended, rfl⟩ := Option.map_eq_some_iff.mp hnext
  have hmem := List.mem_of_getElem? hended
  have hrecorded := htracked.recorded ended hmem
  have hcalled := htracked.called ended hmem
  by_cases hcurrent : recycling.cell.articleImage.taskIdentifier = some ended.issuedIdentifier
  · cases result with
    | none =>
        refine iff_of_true (hshows.congr rfl ?_) nofun
        simp only [UIImageView.retrievalEnded, if_pos hcurrent]
    | some image =>
        have hlatest := hrecorded.mp hcurrent
        have hview := recycling.cell.articleImage.retrievalEnded_of_current image hcurrent
        rw [showsOwn_of_retrieved (congrArg UIImageView.image hview)]
        constructor
        · rintro hlast index' image' retrieval ⟨⟩ hretrieval - hnone
          exact absurd (hlast.symm.trans hnone) (by simp)
        · intro htimely
          have hlast := htimely index image ended rfl hended hlatest
          -- the latest call had a URL, so it is the one that the retrieval is for
          cases hcall : recycling.calls.getLast? with
          | none =>
              rw [List.getLast?_eq_none_iff.mp hcall] at hcalled
              exact absurd hcalled (by simp)
          | some imageUrl =>
              cases imageUrl with
              | none => exact absurd hcall hlast
              | some url => rw [hlatest.of_getLast? hcall hcalled]
  · refine iff_of_true (hshows.congr rfl ?_) ?_
    · simp only [UIImageView.retrievalEnded, if_neg hcurrent]
    · rintro index' image retrieval ⟨⟩ hretrieval hlatest
      obtain rfl := Option.some.inj (hretrieval.symm.trans hended)
      exact absurd (hrecorded.mpr hlatest) hcurrent

theorem showsOwn_step_iff (htracked : recycling.Tracked)
    (hshows : recycling.ShowsOwn imageNamed) {action : Action}
    (hnext : recycling.step imageNamed action = some next) :
    next.ShowsOwn imageNamed ↔ recycling.Timely action := by
  cases action with
  | setupArticleCell imageUrl title =>
      obtain rfl := Option.some.inj hnext
      refine iff_of_true ?_ nofun
      cases imageUrl with
      | some url => exact .nothing rfl
      | none => exact .unavailable List.getLast?_concat rfl
  | retrievalEnded index result => exact showsOwn_retrievalEnded_iff htracked hshows hnext
  | elsewhere =>
      obtain rfl := Option.some.inj hnext
      exact iff_of_true (hshows.congr rfl rfl) nofun

/-- A cell shows its own picture all along exactly if no image of the last call
with a URL comes while the latest call had none. -/
theorem shows_own_iff (imageNamed : String → Option UIImage) (schedule : List Action) :
    Execution.StatesMeet (step imageNamed) (ShowsOwn imageNamed) {} schedule ↔
      Execution.StepsMeet (step imageNamed) Timely {} schedule :=
  Execution.statesMeet_iff_stepsMeet Tracked (fun _ _ _ htracked hnext => htracked.step hnext)
    (fun _ _ _ htracked hshows hnext => showsOwn_step_iff htracked hshows hnext)
    .start (.nothing rfl) schedule

omit [Foundation] in
/-- A cell is set up for a row with a picture and then for one without, and the
picture of the first row arrives. -/
theorem late_image_replaces_default :
    letI : Foundation := .sample
    ¬ ∀ (imageNamed : String → Option UIImage) (schedule : List Action),
      Execution.StatesMeet (step imageNamed) (ShowsOwn imageNamed) {} schedule := by
  let _ : Foundation := .sample
  intro hall
  have hfirst := hall (fun _ => some (1, 1)) [.setupArticleCell (some "https://host/a.png") "A",
    .setupArticleCell none "B", .retrievalEnded 0 (some (70, 70))]
  have hsecond := hfirst.2 _ rfl
  have hthird := hsecond.2 _ rfl
  have hlate := (showsOwn_of_retrieved rfl).mp (hthird.2 _ rfl)
  exact absurd hlate (by simp [setupArticleCell])

end Recycling

end NewsDay
