import Montage.Main
import Montage.Proofs.Merges
import Montage.Proofs.Releases
import Montage.Proofs.Twins
import Montage.Proofs.ValidRuns
import Montage.Render.Rehearsal
import Montage.Session.Summary
import Montage.Storage.Machine
import Montage.Proofs.Entries
import Montage.Proofs.Commits
import Montage.Proofs.Previews
import Montage.Proofs.Exclusion
import Montage.Proofs.Feeds
import Montage.Proofs.Selections
import Montage.Proofs.Cuts
import Montage.Proofs.Blame
import Montage.Proofs.Saves
import Montage.Proofs.Drift
import Montage.Proofs.Namesakes
import Montage.Proofs.Independence
import Montage.Proofs.Gaps
import Montage.Proofs.Roundtrips
import Montage.Proofs.Landings
import Montage.Proofs.Magnets
import Montage.Proofs.Toggles
import Montage.Proofs.Deletions
import Montage.Proofs.Placements
import Montage.Proofs.Requests
import Montage.Proofs.Replacements
import Montage.Proofs.Interruptions
import Montage.Proofs.Removals
import Montage.Proofs.SharedTime
import Montage.Proofs.Firings
