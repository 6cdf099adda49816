import ChipEight.FrameLoop
import ChipEight.Keyboard
import ChipEight.Main
import ChipEight.Proofs.Sprite
import ChipEight.Proofs.Cycle
import ChipEight.Proofs.Invariant
import ChipEight.Proofs.Checked
import ChipEight.Proofs.Failure
import ChipEight.Proofs.Aftermath
import ChipEight.Proofs.Reload
import ChipEight.Proofs.Standing
import ChipEight.Proofs.CallReturn
import ChipEight.Proofs.KeyWait
import ChipEight.Proofs.Moves
import ChipEight.Proofs.Sequential
import ChipEight.Proofs.Published
import ChipEight.Proofs.Handover
import ChipEight.Proofs.Outcome
import ChipEight.Proofs.Stopping
import ChipEight.Proofs.Turn
import ChipEight.Proofs.Dependence
import ChipEight.Proofs.KeyOrder
import ChipEight.Proofs.TimerFlow
import ChipEight.Proofs.RandomUse
import ChipEight.Proofs.ShiftRule
import ChipEight.Proofs.Unread
import ChipEight.Proofs.CallList
import ChipEight.Proofs.TimerAccount
import ChipEight.Proofs.Footprint
import ChipEight.Proofs.KeyLatch
import ChipEight.Proofs.RunLog
import ChipEight.Proofs.Assembling
import ChipEight.Proofs.Disassembly
import ChipEight.Proofs.Drawing
import ChipEight.Proofs.Arithmetic
import ChipEight.Proofs.DrawCycle
import ChipEight.Proofs.Code
import ChipEight.Proofs.RegisterBlock
import ChipEight.Proofs.DecimalDigits
import ChipEight.Proofs.IndexCarry
import ChipEight.Proofs.KeyRequest
import ChipEight.Proofs.MemoryHistory
import ChipEight.Proofs.Afterglow
