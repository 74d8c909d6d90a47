import MarketFeed.Journal
import MarketFeed.Main
import MarketFeed.Proofs.Live.Cap
import MarketFeed.Proofs.Live.Coverage
import MarketFeed.Proofs.Live.Delivery
import MarketFeed.Proofs.Packet.RoundTrip
import MarketFeed.Proofs.Recovery.Archive
import MarketFeed.Proofs.Recovery.Cap
import MarketFeed.Proofs.Recovery.Lossy
import MarketFeed.Proofs.Recovery.Trace
import MarketFeed.Proofs.Recovery.Decoding
import MarketFeed.Proofs.Sequence
import MarketFeed.Proofs.Recovery.Bounds
import MarketFeed.Proofs.Recovery.Order
import MarketFeed.Proofs.Junk
import MarketFeed.Proofs.Layout.Placed
import MarketFeed.Proofs.Message.Fields
import MarketFeed.Proofs.Packet.Accounted
import MarketFeed.Proofs.Recovery.Waits
import MarketFeed.Proofs.Packet.Cut
import MarketFeed.Proofs.Layout.Insertions
import MarketFeed.Proofs.Layout.Loaded
import MarketFeed.Proofs.Message.Integers
import MarketFeed.Proofs.Packet.Layout
import MarketFeed.Proofs.Options.CommandLine
import MarketFeed.Proofs.Text.Lines
import MarketFeed.Proofs.Console
import MarketFeed.Proofs.Net.Address
import MarketFeed.Proofs.Text.Typed
import MarketFeed.Proofs.Settings.Overrides
import MarketFeed.Proofs.Recovery.Cursor
import MarketFeed.Proofs.Session
import MarketFeed.Proofs.Packet.Cursor
import MarketFeed.Proofs.Counters
