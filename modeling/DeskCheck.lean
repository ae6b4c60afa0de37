import DeskCheck.Main
import DeskCheck.Proofs.Structured
import DeskCheck.Proofs.Succession
import DeskCheck.Proofs.Levels
import DeskCheck.Proofs.Grammar
import DeskCheck.Proofs.Insertion
import DeskCheck.Proofs.Rendering
import DeskCheck.Proofs.Recovery
import DeskCheck.Proofs.Accesses
import DeskCheck.Proofs.Literal
import DeskCheck.Proofs.Session
import DeskCheck.Proofs.Windows
import DeskCheck.Proofs.Panes
import DeskCheck.Proofs.CurrentStep
import DeskCheck.Proofs.Height
import DeskCheck.Proofs.Brackets
import DeskCheck.Proofs.Targets
import DeskCheck.Proofs.Tolerance
import DeskCheck.Proofs.Loops
import DeskCheck.Proofs.Chains
import DeskCheck.Proofs.Eager
import DeskCheck.Proofs.Comparison
import DeskCheck.Proofs.Elements
import DeskCheck.Proofs.History
import DeskCheck.Proofs.AssignmentSign
import DeskCheck.Proofs.Separation
import DeskCheck.Proofs.Navigation
import DeskCheck.Proofs.TableScroll
import DeskCheck.Proofs.FixedWidth
import DeskCheck.Proofs.SourceScroll
import DeskCheck.Proofs.Highlighting
import DeskCheck.Proofs.RunState
import DeskCheck.Proofs.Counted
import DeskCheck.Proofs.Names
