import WireKeeper.Interface.Writers
import WireKeeper.Main
import WireKeeper.Proofs.Service.Failure
import WireKeeper.Proofs.Service.Ranges
import WireKeeper.Proofs.Service.Lasting
import WireKeeper.Proofs.Store.Batch
import WireKeeper.Proofs.Store.Serial
import WireKeeper.Proofs.Config.Client
import WireKeeper.Proofs.Service.Identity
import WireKeeper.Proofs.Settings.LastSetter
import WireKeeper.Proofs.Store.Queue
import WireKeeper.Proofs.Service.Administrators
import WireKeeper.Proofs.Net.Next
import WireKeeper.Proofs.Service.Enumeration
import WireKeeper.Proofs.Server.Bootstrap
import WireKeeper.Proofs.MessagePack.Spelling
import WireKeeper.Proofs.Net.RawPairs
import WireKeeper.Proofs.Interface.Dump
import WireKeeper.Proofs.Interface.Staging
import WireKeeper.Proofs.Record.Spelling
import WireKeeper.Proofs.Store.Contents
import WireKeeper.Proofs.Settings.AdminKeys
import WireKeeper.Proofs.Service.ClientFile
import WireKeeper.Proofs.Interface.Writers
import WireKeeper.Proofs.Config.Layout
import WireKeeper.Proofs.Key
import WireKeeper.Proofs.Record.MaskCounter
