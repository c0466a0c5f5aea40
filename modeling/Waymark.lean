import Waymark.Document
import Waymark.Proofs.Document
import Waymark.Proofs.Interference
import Waymark.Proofs.Lines
import Waymark.Proofs.Renaming
import Waymark.Proofs.Resolving
import Waymark.Proofs.Selecting
import Waymark.Proofs.Session.Provenance
import Waymark.Proofs.Session.Transcript
import Waymark.Proofs.Splitting
import Waymark.Proofs.Tag.Candidates
import Waymark.Proofs.Tag.Extension
import Waymark.Proofs.Tag.Measuring
import Waymark.Proofs.Tag.Preferred
import Waymark.Proofs.Tag.Respelling
import Waymark.Proofs.Tag.Walking
import Waymark.Proofs.Unescaping
import Waymark.Session.Operation
import Waymark.Tag.Grammar
