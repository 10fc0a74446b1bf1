import NewsDay.Process.Pictures
import NewsDay.WatchKit.Shown

/-! # The picture on the screen of an article

Once nothing is left to be done, the screen of an article shows the picture that
the phone has retrieved for the message the screen has sent, and stays without
one if the phone has retrieved none. An error of the session would have stopped
the watch.
-/

namespace NewsDay

open Foundation

variable [Foundation]

/-- The screen of an article shows the picture that it was given last. -/
theorem ArticleDetailInterfaceController.replayed {article : Article} {image : Option UIImage}
    {handed : List (Option AnyValue)} {final : Screen}
    (hreplayed : handed.foldlM (fun (screen : Screen) response => screen.received response)
      (Screen.articleDetail (.showing article image)) = Except.ok final) :
    ∃ image', final = .articleDetail (.showing article image') ∧
      (handed = [] ∧ image' = image ∨
        ∃ picture, image' = some picture ∧ some (.image picture) ∈ handed) := by
  induction handed generalizing image with
  | nil =>
      obtain rfl := Except.ok.inj hreplayed
      exact ⟨image, rfl, .inl ⟨rfl, rfl⟩⟩
  | cons response rest ih =>
      rw [List.foldlM_cons] at hreplayed
      cases himage : response.bind AnyValue.asImage with
      | none =>
          simp [Screen.received, imageReceived, WKInterfaceImage.imageFromPhone, himage, bind,
            Except.bind, Except.map] at hreplayed
      | some picture =>
          obtain ⟨value, rfl, hvalue⟩ := Option.bind_eq_some_iff.mp himage
          obtain rfl := AnyValue.asImage_eq_some.mp hvalue
          have hrest : rest.foldlM (fun (screen : Screen) response => screen.received response)
              (Screen.articleDetail (.showing article (some picture))) = Except.ok final := hreplayed
          obtain ⟨image', rfl, hshows⟩ := ih hrest
          refine ⟨image', rfl, .inr ?_⟩
          rcases hshows with ⟨-, hpicture⟩ | ⟨other, hother, hmem⟩
          · exact ⟨picture, hpicture, List.mem_cons_self⟩
          · exact ⟨other, hother, List.mem_cons_of_mem _ hmem⟩

namespace Browsing

variable {imageNamed : String → Option UIImage} {watchPrefix phonePrefix : String}
  {schedule : List Action} {final : Browsing} {opened : OpenScreen} {index : Nat}

section Samples

omit [Foundation]

end Samples

end Browsing

end NewsDay
