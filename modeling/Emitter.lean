import Emitter.Main
import Emitter.Storage.Disk
import Emitter.Tree.Builder
import Emitter.Proofs.Project.Files
import Emitter.Proofs.Render.Expansion
import Emitter.Proofs.Render.Inline
import Emitter.Proofs.Render.Recursion
import Emitter.Proofs.Render.Scope
import Emitter.Proofs.Tree.Document
import Emitter.Proofs.Render.Ending
import Emitter.Proofs.Path
import Emitter.Proofs.Project.Holder
import Emitter.Proofs.Storage.Disk
import Emitter.Proofs.Pipeline.Compile
import Emitter.Proofs.Pipeline.Session
import Emitter.Proofs.Project.Renumber
import Emitter.Proofs.Tree.Root
import Emitter.Proofs.Render.Member
import Emitter.Proofs.Project.TypeFile
import Emitter.Proofs.Project.Bracket
import Emitter.Proofs.Project.MacroName
import Emitter.Proofs.Tree.Finish
import Emitter.Proofs.Tree.Builder
import Emitter.Proofs.Config.File
import Emitter.Proofs.Project.Qualification
import Emitter.Proofs.Render.MacroCall
import Emitter.Proofs.CommandLine.Agreement
import Emitter.Proofs.Text.Layout
import Emitter.Proofs.Project.Layout
import Emitter.Proofs.Config.Settings
import Emitter.Proofs.Tree.Cycle
import Emitter.Proofs.Tree.Relaid
import Emitter.Proofs.Project.Placement
import Emitter.Proofs.Text.Lines
