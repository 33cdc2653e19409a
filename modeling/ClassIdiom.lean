import ClassIdiom.Batch
import ClassIdiom.Decl.Builder
import ClassIdiom.Decl.Printer
import ClassIdiom.Decl.Reader
import ClassIdiom.Profile.Reader
import ClassIdiom.Proofs.Logged
import ClassIdiom.Proofs.Stages
import ClassIdiom.Proofs.Expansion
import ClassIdiom.Proofs.NameTable
import ClassIdiom.Proofs.GeneratedNames
import ClassIdiom.Proofs.MemberOrder
import ClassIdiom.Proofs.MemberWriting
import ClassIdiom.Proofs.ClassText
import ClassIdiom.Proofs.ClassParts
import ClassIdiom.Proofs.Failures
import ClassIdiom.Proofs.Runs
import ClassIdiom.Proofs.Attribution
import ClassIdiom.Proofs.Converted
import ClassIdiom.Proofs.Overloads
import ClassIdiom.Proofs.AccessorHeadings
import ClassIdiom.Proofs.Overlays
import ClassIdiom.Proofs.Sections
import ClassIdiom.Proofs.OverrideSources
import ClassIdiom.Proofs.KnownTypes
import ClassIdiom.Proofs.Isolation
import ClassIdiom.Proofs.JsonTokens
import ClassIdiom.Proofs.JsonText
import ClassIdiom.Proofs.Records
import ClassIdiom.Proofs.DeclText
import ClassIdiom.Proofs.Ancestors
import ClassIdiom.Proofs.OwnVisibility
import ClassIdiom.Proofs.Spelling
import ClassIdiom.Proofs.Tokens
import ClassIdiom.Proofs.MemberLines
import ClassIdiom.Proofs.OwnNames
import ClassIdiom.Proofs.WrittenText
import ClassIdiom.Proofs.Imports
import ClassIdiom.Proofs.NearestAncestor
import ClassIdiom.Proofs.Checks
import ClassIdiom.Proofs.PropertyNames
import ClassIdiom.Proofs.MeetingNames
import ClassIdiom.Proofs.NamesInUse
import ClassIdiom.Proofs.MemberTexts
import ClassIdiom.Proofs.FileText
import ClassIdiom.Proofs.ArrayTypes
import ClassIdiom.Proofs.Bodies
import ClassIdiom.Proofs.ImportLines
import ClassIdiom.Proofs.PythonBlocks
import ClassIdiom.Proofs.AccessorMarks
import ClassIdiom.Proofs.OverlayEffects
import ClassIdiom.Proofs.DeclEdits
import ClassIdiom.Proofs.HiddenTokens
import ClassIdiom.Proofs.WriterCalls
