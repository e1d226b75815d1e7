import Montage.Session.Basic
import Montage.Text.Quoted

/-!
# Summaries of sessions

One line about the state of a session, for whoever looks for a fault.
-/

namespace Montage

/-- The ids of a set, in quotes and in order. -/
def ClipSet.summary (ids : ClipSet) : String :=
  "\x7b" ++ ", ".intercalate (ids.toList.map Text.quoted) ++ "\x7d"

/-- The project, the clips and the state of the editing in one line. -/
def Session.summary {α : Type} (s : Session α) : String :=
  "EditorSession \x7b project: " ++ Text.quoted s.timeline.id ++
    s!", clips: {s.timeline.clipCount}, selection: Selection " ++
    "\x7b ids: " ++ s.selection.summary ++ " \x7d" ++
    s!", dragging: {s.drag.isSome}, revision: {s.revision}, sink: {s.observed} " ++ "\x7d"

end Montage
