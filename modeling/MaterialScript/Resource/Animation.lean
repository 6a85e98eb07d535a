/-
Animations: how their frames follow each other.
-/
import MaterialScript.Vocabulary

namespace MaterialScript

/-- How the frames of an animation follow each other. -/
inductive PlaybackMode where
  | oneShot | oneLoop | loop | pingPong | pingPongLoop
deriving DecidableEq

def PlaybackMode.vocabulary : Vocabulary PlaybackMode :=
  ⟨"animation playback mode", .loop,
    [("oneShot", .oneShot), ("oneLoop", .oneLoop), ("loop", .loop), ("pingPong", .pingPong),
      ("pingPongLoop", .pingPongLoop)]⟩

end MaterialScript
