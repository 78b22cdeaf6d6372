import Hack.Machine.Hardware
import Hack.Main
import Hack.Proofs.VM.Forward
import Hack.Proofs.VM.Order
import Hack.Proofs.VM.Annotation
import Hack.Proofs.VM.Grammar
import Hack.Proofs.Machine.Halting
import Hack.Proofs.Machine.Hardware
import Hack.Proofs.CommandLine.Emulation
import Hack.Proofs.CommandLine.Independence
import Hack.Proofs.CommandLine.Preservation
import Hack.Proofs.Rom.Words
import Hack.Proofs.Rom.Renaming
import Hack.Proofs.VM.Restoring
import Hack.Proofs.VM.Listing
import Hack.Proofs.Machine.Slices
import Hack.Proofs.VM.Colours
