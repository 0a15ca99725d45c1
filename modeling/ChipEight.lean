import ChipEight.Keyboard
import ChipEight.Main
import ChipEight.Proofs.Flat.Basic
import ChipEight.Proofs.Invariants
import ChipEight.Proofs.Ranges
import ChipEight.Proofs.Screen.Pixels
import ChipEight.Proofs.Flat.Execute
import ChipEight.Proofs.Screen.Sprites
import ChipEight.Proofs.Flat.Simulation
import ChipEight.Proofs.Flat.Drawing
import ChipEight.Proofs.Flat.Step
import ChipEight.Proofs.WellFormed
import ChipEight.Proofs.Frames
import ChipEight.Proofs.Assembly.Labels
import ChipEight.Proofs.Assembly.Addresses
import ChipEight.Proofs.Numerals
import ChipEight.Proofs.Codec
import ChipEight.Proofs.Text.Cutting
import ChipEight.Proofs.Assembly.Written
import ChipEight.Proofs.Reassembly
import ChipEight.Proofs.Shadowing
import ChipEight.Proofs.Dependence
import ChipEight.Proofs.Dialects
import ChipEight.Proofs.Schedules
import ChipEight.Proofs.SingleSteps
import ChipEight.Proofs.Loops
import ChipEight.Proofs.Stopping
import ChipEight.Proofs.Resets
import ChipEight.Proofs.Refusals
import ChipEight.Proofs.Assembly.Composition
import ChipEight.Proofs.Assembly.Guards
import ChipEight.Proofs.Assembly.AddressPlaces
import ChipEight.Proofs.Footprints
import ChipEight.Proofs.Screen.Drawings
import ChipEight.Proofs.Sprites
import ChipEight.Proofs.Monitor.Raising
import ChipEight.Proofs.Monitor.Answers
import ChipEight.Proofs.Monitor.Handling
import ChipEight.Proofs.Completion
import ChipEight.Proofs.Faults
import ChipEight.Proofs.Subroutines
import ChipEight.Proofs.Budgets
import ChipEight.Proofs.Plays
import ChipEight.Proofs.Blocks
import ChipEight.Proofs.Arithmetic
import ChipEight.Proofs.IndexRegister
import ChipEight.Proofs.Accounts
import ChipEight.Proofs.SavedRegisters
import ChipEight.Proofs.Redrawing
import ChipEight.Proofs.Scrolling
import ChipEight.Proofs.Waiting
import ChipEight.Proofs.Text.Lines
import ChipEight.Proofs.Assembly.Formatting
import ChipEight.Proofs.Assembly.Listing
import ChipEight.Proofs.Loading
import ChipEight.Proofs.Text.Utf8
import ChipEight.Proofs.Sources
import ChipEight.Proofs.Assembling
import ChipEight.Proofs.Rendering
import ChipEight.Proofs.Literals
import ChipEight.Proofs.AddressLists
