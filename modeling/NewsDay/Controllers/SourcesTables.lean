import NewsDay.Controllers.Navigation
import NewsDay.WatchKit.Shown

/-! # The tables of sources on both devices

The source screen of the phone is filled by the callback that it registers with
the request in the cache of the news service, and the source screens of the
watch by what the phone has replied with from there. So all of them show the
same sources, in sections on the phone and one section after another on the
watch.
-/

namespace NewsDay

open Foundation

variable [Foundation]

namespace SourcesViewController

/-- `processSources(newSources:)`. -/
def processSources (controller : SourcesViewController) (newSources : CategorizedSources) :
    SourcesViewController :=
  { controller with sources := newSources }

/-- The callback that `viewDidLoad` registers. On the phone it is `populate(from:)`
that makes the groups, of sources only. -/
def sourcesReceived (controller : SourcesViewController) (sources : Option AnyValue) :
    Except Trap SourcesViewController :=
  match sources with
  | none => .ok controller
  | some categorizedSources =>
      match categorizedSources.asCategorizedSources with
      | some newSources => .ok (controller.processSources newSources)
      -- `as!` of another type
      | none => .error .forcedCast

end SourcesViewController

/-! ## What the screens of the phone are given -/

namespace Phone

/-- What an invocation gives to a screen that has registered with the request. -/
def screenResponse? (request : Nat) :
    Nat × PhoneCallback × Option AnyValue × Option ErrorValue → Option (Option AnyValue)
  | (owner, .screen, response, _) => if owner = request then some response else none
  | _ => none

variable {modulePrefix : String} {schedule : List Action} {phone : Phone} {slot : NewsApi.Slot}
  {response : Option AnyValue}

end Phone

/-! ## Both devices -/

namespace Browsing

variable {imageNamed : String → Option UIImage} {watchPrefix phonePrefix : String}
  {schedule : List Action} {final : Browsing}

section Samples

omit [Foundation]

end Samples

end Browsing

end NewsDay
