import MoveMachine.CommandLine.Directory
import MoveMachine.Config.Describe
import MoveMachine.Device.Recipe
import MoveMachine.Main
import MoveMachine.Proofs.ArithmeticUnit
import MoveMachine.Proofs.Budget
import MoveMachine.Proofs.Depth
import MoveMachine.Proofs.Echo
import MoveMachine.Proofs.Export
import MoveMachine.Proofs.FailedStep
import MoveMachine.Proofs.Fibonacci
import MoveMachine.Proofs.FileTriggers
import MoveMachine.Proofs.JumpPolicy
import MoveMachine.Proofs.Layering
import MoveMachine.Proofs.LiteralForms
import MoveMachine.Proofs.Occupancy
import MoveMachine.Proofs.Persistence
import MoveMachine.Proofs.PlainMachine
import MoveMachine.Proofs.Refusal
import MoveMachine.Proofs.Reloading
import MoveMachine.Proofs.Resume
import MoveMachine.Proofs.SymbolHistory
import MoveMachine.Proofs.Unfailing
import MoveMachine.Proofs.Veil
import MoveMachine.Proofs.WithoutTriggers
import MoveMachine.Request
