import PkiExecutor.Answers
import PkiExecutor.Artifacts
import PkiExecutor.Binding
import PkiExecutor.Changes
import PkiExecutor.Composition
import PkiExecutor.Concurrent
import PkiExecutor.Delivery
import PkiExecutor.DnsServer
import PkiExecutor.Gate
import PkiExecutor.Hardening
import PkiExecutor.Hosts
import PkiExecutor.InstallTask
import PkiExecutor.KeyFile
import PkiExecutor.Lib.Course
import PkiExecutor.Lists
import PkiExecutor.Numerals
import PkiExecutor.Outcomes
import PkiExecutor.Panics
import PkiExecutor.PhoneHome.Agent
import PkiExecutor.PhoneHome.Backoff
import PkiExecutor.PhoneHome.Connect
import PkiExecutor.PhoneHome.Pace
import PkiExecutor.PhoneHome.Progress
import PkiExecutor.PhoneHome.Streams
import PkiExecutor.Policy
import PkiExecutor.Provisioning
import PkiExecutor.Publication
import PkiExecutor.Revocation
import PkiExecutor.Scripted
import PkiExecutor.Scripts
import PkiExecutor.Secrets
import PkiExecutor.Service
import PkiExecutor.Settings
import PkiExecutor.Siblings
import PkiExecutor.Signing
import PkiExecutor.TempScripts
