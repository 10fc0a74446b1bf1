import NewsDay.Network.Delivery
import NewsDay.Network.WatchAnswers

/-! # Pictures on the watch

An interface image of the watch asks the phone for a picture and shows what the
request comes out with. The request is settled by the reply, by an error of the
session, or at once when there is no session; a reply without data leaves it
unsettled.
-/

namespace NewsDay

open Foundation

variable [Foundation]

/-- `class WKInterfaceImage`, with the picture that it shows. -/
structure WKInterfaceImage where
  image : Option UIImage

/-- How a call of `WatchClient.getImage(from:)` can end. -/
inductive ImageOutcome
  | noSession
  | answered (answer : WatchAnswer)

/-- The call of `setResult` that `getImage(session:url:asyncRequest:)` leads to. -/
def WatchClient.getImage : ImageOutcome → Settlement
  | .noSession => some (none, none)
  | .answered (.reply reply) => imageReplied reply
  | .answered (.error error) => some (none, some error)

namespace ImageOutcome

/-- A picture was delivered: the reply holds data that decode to it. -/
def Delivers (outcome : ImageOutcome) (image : UIImage) : Prop :=
  ∃ reply data, outcome = .answered (.reply reply) ∧
    (reply.value "image").bind AnyValue.asData = some data ∧ imageFromData data = some image

/-- There is a reply, and the data that it holds, if any, decode to a picture. -/
def Presentable (outcome : ImageOutcome) : Prop :=
  ∃ reply, outcome = .answered (.reply reply) ∧
    ∀ data, (reply.value "image").bind AnyValue.asData = some data →
      ∃ image, imageFromData data = some image

variable {outcome : ImageOutcome}

theorem Delivers.unique {image image' : UIImage} (hdelivers : outcome.Delivers image)
    (hdelivers' : outcome.Delivers image') : image = image' := by
  obtain ⟨reply, data, rfl, hdata, himage⟩ := hdelivers
  obtain ⟨reply', data', hsame, hdata', himage'⟩ := hdelivers'
  obtain rfl := WatchAnswer.reply.inj (ImageOutcome.answered.inj hsame)
  obtain rfl := Option.some.inj (hdata.symm.trans hdata')
  exact Option.some.inj (himage.symm.trans himage')

/-- The request is settled with the picture, not at all, or with nil. -/
theorem getImage_cases (outcome : ImageOutcome) :
    (∃ image, outcome.Presentable ∧ outcome.Delivers image ∧
      WatchClient.getImage outcome = some (some (.image image), none)) ∨
    (outcome.Presentable ∧ (∀ image, ¬ outcome.Delivers image) ∧
      WatchClient.getImage outcome = none) ∨
    (¬ outcome.Presentable ∧ ∃ error, WatchClient.getImage outcome = some (none, error)) := by
  cases outcome with
  | noSession =>
      refine .inr (.inr ⟨?_, none, rfl⟩)
      rintro ⟨reply, hreply, -⟩
      exact absurd hreply nofun
  | answered answer =>
      cases answer with
      | error error =>
          refine .inr (.inr ⟨?_, some error, rfl⟩)
          rintro ⟨reply, hreply, -⟩
          exact absurd hreply nofun
      | reply reply =>
          simp only [Presentable, Delivers, WatchClient.getImage, WatchClient.imageReplied]
          cases hdata : (reply.value "image").bind AnyValue.asData with
          | none =>
              refine .inr (.inl ⟨⟨reply, rfl, by simp [hdata]⟩, ?_, rfl⟩)
              rintro image ⟨reply', data, hsame, hdata', -⟩
              obtain rfl := WatchAnswer.reply.inj (ImageOutcome.answered.inj hsame)
              exact Option.some_ne_none data (hdata'.symm.trans hdata)
          | some data =>
              cases himage : imageFromData data with
              | some image =>
                  refine .inl ⟨image, ⟨reply, rfl, ?_⟩, ⟨reply, data, rfl, hdata, himage⟩, ?_⟩
                  · intro data' hdata'
                    obtain rfl := Option.some.inj (hdata.symm.trans hdata')
                    exact ⟨image, himage⟩
                  · rw [Option.map_some, himage]
                    rfl
              | none =>
                  refine .inr (.inr ⟨?_, none, by rw [Option.map_some, himage]; rfl⟩)
                  rintro ⟨reply', hsame, hdecodes⟩
                  obtain rfl := WatchAnswer.reply.inj (ImageOutcome.answered.inj hsame)
                  obtain ⟨image, hsome⟩ := hdecodes data hdata
                  exact Option.some_ne_none image (hsome.symm.trans himage)

end ImageOutcome

namespace WKInterfaceImage

/-- The callback of `imageFromPhone(url:)`. -/
def imageFromPhone (interface : WKInterfaceImage) (response : Option AnyValue) :
    Except Trap WKInterfaceImage :=
  match response.bind AnyValue.asImage with
  | some image => .ok { interface with image := some image }
  -- `as!` of nil, or of another type
  | none => .error .forcedCast

def delivery (outcome : ImageOutcome) : Delivery Unit AnyValue ErrorValue WKInterfaceImage where
  settle := .ok (WatchClient.getImage outcome).toList
  prepare _ interface := interface
  receive _ response _ interface := interface.imageFromPhone response

/-- What becomes of an interface image whose request has this outcome. -/
structure ShowsDelivered (outcome : ImageOutcome) (interface : WKInterfaceImage)
    (process : Delivery.Process Unit AnyValue ErrorValue WKInterfaceImage) : Prop where
  running : process.halted = none
  waiting : process.called = [] → process.state = interface
  delivered : process.called ≠ [] →
    ∀ image, outcome.Delivers image → process.state.image = some image
  missing : (∀ image, ¬ outcome.Delivers image) → process.state = interface
  called : process.main.Drained → process.finished = true →
    ∀ image, outcome.Delivers image → process.called = process.listening

/-- In every order of the answer, the registration and the blocks of other
code, the picture that was delivered is shown, and nothing stops the watch. -/
def Survives (outcome : ImageOutcome) (interface : WKInterfaceImage) : Prop :=
  ∀ schedule process,
    Execution.execute (delivery outcome).step (.start interface) schedule = some process →
      ShowsDelivered outcome interface process

variable {outcome : ImageOutcome} {interface : WKInterfaceImage}

theorem settle_eq {settlement : WatchClient.Settlement}
    (hcall : WatchClient.getImage outcome = settlement) :
    (delivery outcome).settle = .ok settlement.toList := by
  rw [delivery, hcall]

theorem kept_of_delivers (interface : WKInterfaceImage) (image : UIImage) :
    (delivery outcome).Kept [(some (.image image), none)]
      (Delivery.Final interface ⟨some image⟩) := by
  apply Delivery.kept_of_final
  · exact fun _ _ => rfl
  · exact fun _ => rfl
  · exact fun _ => rfl

theorem survives_of_delivers {image : UIImage} (hdelivers : outcome.Delivers image)
    (hcall : WatchClient.getImage outcome = some (some (.image image), none)) :
    Survives outcome interface := by
  intro schedule process hrun
  have hsettle := settle_eq hcall
  obtain ⟨hwired, hhalted, hstate⟩ :=
    (kept_of_delivers interface image).run hsettle (Delivery.final_start _ _) hrun
  refine ⟨hhalted, hstate.1, ?_, ?_, ?_⟩
  · intro hcalled image' hdelivers'
    obtain rfl := hdelivers.unique hdelivers'
    rw [hstate.2 hcalled]
  · intro hnone
    exact absurd hdelivers (hnone image)
  · intro hdrained hfinished _ _
    exact hwired.drained hdrained hfinished hsettle (List.cons_ne_nil _ _)

/-- A request that is never settled calls nobody. -/
theorem survives_of_unsettled (hnone : ∀ image, ¬ outcome.Delivers image)
    (hcall : WatchClient.getImage outcome = none) : Survives outcome interface := by
  intro schedule process hrun
  have hkept : (delivery outcome).Kept [] fun _ called state => state = interface ∧ called = [] :=
    { prepare := fun _ _ _ _ hstate _ => hstate
      receive := fun _ _ _ _ _ _ _ hpair => absurd hpair List.not_mem_nil }
  obtain ⟨-, hhalted, hstate, hcalled⟩ := hkept.run (settle_eq hcall) ⟨rfl, rfl⟩ hrun
  exact ⟨hhalted, fun _ => hstate, fun hne => absurd hcalled hne, fun _ => hstate,
    fun _ _ image hdelivers => absurd hdelivers (hnone image)⟩

theorem not_survives_of_nil {error : Option ErrorValue}
    (hcall : WatchClient.getImage outcome = some (none, error)) : ¬ Survives outcome interface := by
  intro hsurvives
  apply Delivery.not_always_running () interface (settle_eq hcall) rfl
  exact fun schedule process hrun => (hsurvives schedule process hrun).running

/-- The watch survives the request for a picture exactly if there is a reply
whose data, if it holds any, are those of a picture. -/
theorem image_survives_iff (outcome : ImageOutcome) (interface : WKInterfaceImage) :
    Survives outcome interface ↔ outcome.Presentable := by
  rcases outcome.getImage_cases with ⟨image, hpresentable, hdelivers, hcall⟩ |
    ⟨hpresentable, hnone, hcall⟩ | ⟨hnot, error, hcall⟩
  · exact iff_of_true (survives_of_delivers hdelivers hcall) hpresentable
  · exact iff_of_true (survives_of_unsettled hnone hcall) hpresentable
  · exact iff_of_false (not_survives_of_nil hcall) hnot

omit [Foundation] in
/-- The phone is out of reach, and the session reports an error. -/
theorem unreachable_phone_stops_watch :
    letI : Foundation := .sample
    ¬ ∀ (outcome : ImageOutcome) (interface : WKInterfaceImage), Survives outcome interface := by
  let _ : Foundation := .sample
  intro hsurvives
  have hunreachable := hsurvives (.answered (.error (.system "not reachable"))) ⟨none⟩
  exact not_survives_of_nil rfl hunreachable

end WKInterfaceImage

end NewsDay
